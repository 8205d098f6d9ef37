import CallProfile.Proofs.Keys
import CallProfile.Proofs.Totals

/-! # What is attributed to whom

The buckets of all sections are one list, in which each has its first address. Those with samples
are shared out by what is found at these addresses: a symbol has those where it was found, and those
where nothing was found are told one by one. The samples of the symbols are then put together by
source, without loss.
-/

namespace CallProfile

open scoped Whole

/-- The buckets of sections in the order of the file, each with its first address. -/
def bucketsAt (sections : List Section) : List (Int × Bucket) :=
  sections.flatMap fun s => s.buckets.map fun b => (s.histogram.bucketAddress b.index, b)

/-- The buckets with samples whose first address belongs to a symbol, or to none. -/
def bucketsOf (sections : List Section) (table : SymbolTable) (owner : Option Symbol) :
    List (Int × Bucket) :=
  (bucketsAt sections).filter fun p => p.2.samples ≠ 0 ∧ table.resolve p.1 = owner

/-- A section without its buckets that have no samples. -/
def Section.withoutEmpty (s : Section) : Section :=
  { s with buckets := s.buckets.filter (·.samples ≠ 0) }

namespace Attribution

variable {a : Attribution} {sections : List Section} {table : SymbolTable}

/-- Whether an attribution gives everyone the buckets that are theirs. -/
structure Exact (a : Attribution) (sections : List Section) (table : SymbolTable) : Prop where
  samples : ∀ s, a.samples.count s = ((bucketsOf sections table (some s)).map (·.2.samples)).sum
  buckets : ∀ s, a.buckets.count s = (bucketsOf sections table (some s)).length
  sampled : ∀ s, s ∈ a.samples.keys ↔ bucketsOf sections table (some s) ≠ []
  sameKeys : a.buckets.keys = a.samples.keys
  unattributed : a.unattributed = ((bucketsOf sections table none).map (·.2.samples)).sum
  diagnostics : a.diagnostics = (bucketsOf sections table none).map fun p =>
    { address := p.1, kind := "bucket", count := p.2.samples, detail := s!"bucket {p.2.index}" }
  total : a.attributed + a.unattributed = (sections.map (·.total)).sum

/-- Whether the samples of symbols are divided by source. -/
structure IsDivided (a : Attribution) : Prop where
  distinct : (a.files.map (·.1)).Nodup
  entries : (a.files.flatMap (·.2)).Perm a.samples.entries
  nonempty : ∀ f ∈ a.files, f.2 ≠ []
  source : ∀ f ∈ a.files, ∀ e ∈ f.2, e.1.source = f.1
  fileTotal : ∀ f ∈ a.files, a.fileTotal f.1 = (f.2.map (·.2)).sum
  total : (a.files.map fun f => a.fileTotal f.1).sum = a.attributed

/-! ## Owners -/

/-- The readings that belong to a symbol, or to none. -/
def owned (located : List (Reading × Option Symbol)) (owner : Option Symbol) : List Reading :=
  (located.filter (·.2 = owner)).map (·.1)

theorem lost_eq_owned (located : List (Reading × Option Symbol)) :
    lost located = owned located none := by
  rw [lost, owned]
  congr 1
  apply List.filter_congr
  intro l _
  cases l.2 <;> rfl

theorem filter_found (located : List (Reading × Option Symbol)) (s : Symbol) :
    ((found located).filter fun l => l.2 = s).map (·.1) = owned located (some s) := by
  induction located with
  | nil => rfl
  | cons l located ih =>
      obtain ⟨r, _ | t⟩ := l
      · exact ih
      · by_cases same : t = s
        · subst same
          simpa [found, owned] using ih
        · simpa [found, owned, same] using ih

theorem readings_eq (sections : List Section) :
    sections.flatMap (·.readings) =
      ((bucketsAt sections).filter (·.2.samples ≠ 0)).map fun p => ⟨p.1, p.2⟩ := by
  rw [bucketsAt, List.filter_flatMap, List.map_flatMap]
  congr 1
  funext s
  rw [Section.readings, List.filter_map, List.map_map]
  rfl

/-- What belongs to an owner are the buckets at whose first address it is found. -/
theorem owned_locate (owner : Option Symbol) :
    owned (locate sections table) owner =
      (bucketsOf sections table owner).map fun p => ⟨p.1, p.2⟩ := by
  rw [owned, locate, readings_eq, List.map_map, List.filter_map, List.filter_filter, List.map_map,
    bucketsOf]
  congr 1
  apply List.filter_congr
  intro p _
  simp [Bool.and_comm]

theorem weight_found (weight : Reading → Nat) (s : Symbol) :
    (Tally.ofList ((found (locate sections table)).map fun l => (l.2, weight l.1))).count s =
      ((bucketsOf sections table (some s)).map fun p => weight ⟨p.1, p.2⟩).sum := by
  have own := congrArg (List.map weight) (filter_found (locate sections table) s)
  rw [owned_locate, List.map_map, List.map_map] at own
  rw [count_found]
  exact congrArg List.sum own

theorem bucketsOf_eq_nil_iff (s : Symbol) :
    bucketsOf sections table (some s) = [] ↔ ∀ l ∈ found (locate sections table), l.2 ≠ s := by
  have own := filter_found (locate sections table) s
  rw [owned_locate] at own
  rw [← List.map_eq_nil_iff, ← own, List.map_eq_nil_iff, List.filter_eq_nil_iff]
  simp

theorem keys_found (weight : Reading → Nat) :
    (Tally.ofList ((found (locate sections table)).map fun l => (l.2, weight l.1))).keys =
      ((found (locate sections table)).map (·.2)).eraseDups := by
  rw [Tally.keys_ofList, List.map_map]
  rfl

theorem counters_eq_total (sections : List Section) :
    (sections.flatMap (·.counters)).sum = (sections.map (·.total)).sum := by
  rw [List.flatMap, List.sum_flatten, List.map_map]
  rfl

theorem exact_ofSections (sections : List Section) (table : SymbolTable) :
    (ofSections sections table).Exact sections table where
  samples := weight_found (·.bucket.samples)
  buckets s := by
    -- a bucket counts as one, whatever its samples
    refine (weight_found (fun _ => 1) s).trans ?_
    simp
  sampled s := by
    have key : s ∈ (ofSections sections table).samples.keys ↔
        s ∈ ((found (locate sections table)).map (·.2)).eraseDups :=
      iff_of_eq (congrArg (s ∈ ·) (keys_found (·.bucket.samples)))
    rw [key, List.mem_eraseDups, List.mem_map, ne_eq, bucketsOf_eq_nil_iff]
    simp
  sameKeys := (keys_found fun _ => 1).trans (keys_found (·.bucket.samples)).symm
  unattributed := by
    have own : (ofSections sections table).unattributed =
        ((lost (locate sections table)).map (·.bucket.samples)).sum := rfl
    rw [own, lost_eq_owned, owned_locate, List.map_map]
    rfl
  diagnostics := by
    have own : (ofSections sections table).diagnostics =
        (lost (locate sections table)).map (·.diagnostic) := rfl
    rw [own, lost_eq_owned, owned_locate, List.map_map]
    rfl
  total := (total_ofSections sections table).trans (counters_eq_total sections)

/-! ## Sources -/

theorem mem_files {a : Attribution} {f : Option String × List (Symbol × Nat)}
    (member : f ∈ a.files) : f.1 ∈ a.sources ∧ f.2 = a.inFile f.1 := by
  obtain ⟨source, listed, rfl⟩ := List.mem_map.1 member
  exact ⟨listed, rfl⟩

theorem flatMap_files (a : Attribution) : (a.files.flatMap (·.2)).Perm a.samples.entries := by
  rw [files, List.flatMap_map]
  refine perm_groups (fun e : Symbol × Nat => e.1.source) (nodup_eraseDups _) fun e member => ?_
  rw [List.mem_eraseDups]
  exact List.mem_map_of_mem (List.mem_map_of_mem member)

theorem isDivided (a : Attribution) : a.IsDivided where
  distinct := by
    have sources : a.files.map (·.1) = a.sources := by
      rw [files, List.map_map]
      exact List.map_id _
    rw [sources]
    exact nodup_eraseDups _
  entries := flatMap_files a
  nonempty f member := by
    obtain ⟨listed, own⟩ := mem_files member
    rw [sources, List.mem_eraseDups, List.mem_map] at listed
    obtain ⟨s, key, source⟩ := listed
    obtain ⟨e, entry, rfl⟩ := List.mem_map.1 key
    rw [own]
    exact List.ne_nil_of_mem (List.mem_filter.2 ⟨entry, by simpa using source⟩)
  source f member e inside := by
    rw [(mem_files member).2] at inside
    simpa using (List.mem_filter.1 inside).2
  fileTotal f member := by rw [fileTotal, (mem_files member).2]
  total := by
    have amounts := ((flatMap_files a).map (·.2)).sum_eq
    rw [files, List.map_map]
    rw [files, List.flatMap_map, List.map_flatMap, List.flatMap, List.sum_flatten,
      List.map_map] at amounts
    exact amounts

/-! ## Empty buckets -/

theorem readings_withoutEmpty (s : Section) : s.withoutEmpty.readings = s.readings := by
  rw [Section.readings, Section.withoutEmpty, List.filter_filter]
  simp [Section.readings]

theorem ofSections_withoutEmpty (sections : List Section) (table : SymbolTable) :
    ofSections (sections.map (·.withoutEmpty)) table = ofSections sections table := by
  have readings : (sections.map (·.withoutEmpty)).flatMap (·.readings) =
      sections.flatMap (·.readings) := by
    rw [List.flatMap_map, funext readings_withoutEmpty]
  have rate : (sections.map (·.withoutEmpty)).head?.map (·.histogram.sampleRate) =
      sections.head?.map (·.histogram.sampleRate) := by
    rw [List.head?_map, Option.map_map]
    rfl
  rw [ofSections, ofSections, readings, rate]

/-- Samples are attributed to the symbol that is found at the first address of their bucket. A
    symbol has the samples and the number of its buckets, and no entry without one. The other
    buckets with samples are told one by one in their order. Everything is counted, the sources
    divide the entries of the symbols, and a bucket without samples is as good as none. -/
theorem attribution_exact (sections : List Section) (table : SymbolTable) :
    (ofSections sections table).Exact sections table ∧ (ofSections sections table).IsDivided ∧
      ofSections (sections.map (·.withoutEmpty)) table = ofSections sections table :=
  ⟨exact_ofSections sections table, isDivided _, ofSections_withoutEmpty sections table⟩

end Attribution

end CallProfile
