import CallProfile.Profile.Basic
import CallProfile.Proofs.Outcomes
import CallProfile.Proofs.Tally

/-! # What a profile accounts for

The counters of a recording are the samples of its buckets. A profile of recordings has every
sample of their counters once, at a symbol or among those without one, and every counter that is
not zero once, as a bucket of a symbol or as a diagnostic.
-/

namespace CallProfile

open scoped Whole

/-- The counters of a section. -/
def Section.counters (s : Section) : List Nat :=
  s.buckets.map (·.samples)

/-- The counters of a recording, section by section. -/
def Recording.counters (r : Recording) : List Nat :=
  r.sections.flatMap (·.counters)

/-- The counters that are not zero. -/
def filled (counters : List Nat) : List Nat :=
  counters.filter (· ≠ 0)

theorem filled_append (first second : List Nat) :
    filled (first ++ second) = filled first ++ filled second :=
  List.filter_append ..

theorem sum_filled (counters : List Nat) : (filled counters).sum = counters.sum := by
  induction counters with
  | nil => rfl
  | cons n counters ih =>
      by_cases zero : n = 0
      · simp_all [filled]
      · simp_all [filled]

/-- The readings of sections are their counters that are not zero. -/
theorem samples_readings (sections : List Section) :
    (sections.flatMap (·.readings)).map (·.bucket.samples) =
      filled (sections.flatMap (·.counters)) := by
  induction sections with
  | nil => rfl
  | cons s sections ih =>
      rw [List.flatMap_cons, List.flatMap_cons, List.map_append, ih, filled_append]
      simp [filled, Section.counters, Section.readings, List.filter_map, Function.comp_def]

namespace Attribution

variable {rate : Nat} {located : List (Reading × Option Symbol)}

/-- The readings with a symbol, with it. -/
def found (located : List (Reading × Option Symbol)) : List (Reading × Symbol) :=
  located.filterMap fun l => l.2.map fun s => (l.1, s)

/-- The readings without a symbol. -/
def lost (located : List (Reading × Option Symbol)) : List Reading :=
  (located.filter (·.2.isNone)).map (·.1)

theorem sum_located (weight : Reading → Nat) (located : List (Reading × Option Symbol)) :
    ((found located).map fun l => weight l.1).sum + ((lost located).map weight).sum =
      (located.map fun l => weight l.1).sum := by
  induction located with
  | nil => rfl
  | cons l located ih =>
      obtain ⟨r, symbol⟩ := l
      cases symbol with
      | none =>
          simp [found, lost] at ih ⊢
          omega
      | some s =>
          simp [found, lost] at ih ⊢
          omega

/-- The readings of sections, each with the symbol at its address. -/
def locate (sections : List Section) (table : SymbolTable) : List (Reading × Option Symbol) :=
  (sections.flatMap (·.readings)).map fun r => (r, table.resolve r.address)

theorem samples_locate (sections : List Section) (table : SymbolTable) :
    (locate sections table).map (·.1.bucket.samples) = filled (sections.flatMap (·.counters)) := by
  rw [← samples_readings, locate, List.map_map]
  rfl

/-- Every sample belongs to a symbol or to none. -/
theorem total_ofSections (sections : List Section) (table : SymbolTable) :
    (ofSections sections table).total = (sections.flatMap (·.counters)).sum := by
  have samples : (ofSections sections table).samples.total =
      ((found (locate sections table)).map (·.1.bucket.samples)).sum := by
    refine (Tally.total_ofList _).trans ?_
    rw [List.map_map]
    rfl
  rw [← sum_filled, ← samples_locate sections table, ← sum_located (·.bucket.samples), ← samples]
  rfl

/-- Every counter that is not zero is a bucket of a symbol or has a diagnostic. -/
theorem buckets_ofSections (sections : List Section) (table : SymbolTable) :
    (ofSections sections table).buckets.total + (ofSections sections table).diagnostics.length =
      (filled (sections.flatMap (·.counters))).length := by
  have buckets : (ofSections sections table).buckets.total =
      ((found (locate sections table)).map fun _ => 1).sum := by
    refine (Tally.total_ofList _).trans ?_
    rw [List.map_map]
    rfl
  have diagnostics : (ofSections sections table).diagnostics.length =
      ((lost (locate sections table)).map fun _ => 1).sum := by
    rw [List.map_const', List.sum_replicate, Nat.nsmul_eq_mul, Nat.mul_one]
    exact List.length_map _
  rw [buckets, diagnostics, sum_located fun _ => 1, ← samples_locate sections table]
  simp

theorem kind_ofSections (sections : List Section) (table : SymbolTable) :
    ∀ d ∈ (ofSections sections table).diagnostics, d.kind = "bucket" := by
  intro d member
  obtain ⟨r, -, rfl⟩ := List.mem_map.1 member
  rfl

/-- The readings of a symbol, as any weight counts them. -/
theorem count_found (weight : Reading → Nat) (located : List (Reading × Option Symbol))
    (s : Symbol) :
    (Tally.ofList ((found located).map fun l => (l.2, weight l.1))).count s =
      (((found located).filter fun l => l.2 = s).map fun l => weight l.1).sum := by
  rw [Tally.count_ofList]
  simp [Tally.amountOf, List.filter_map, Function.comp_def]

theorem buckets_eq_zero {sections : List Section} {table : SymbolTable} {s : Symbol}
    (none : (ofSections sections table).samples.count s = 0) :
    (ofSections sections table).buckets.count s = 0 := by
  have samples := (count_found (·.bucket.samples) (locate sections table) s).symm.trans none
  have own : (found (locate sections table)).filter (fun l => l.2 = s) = [] := by
    rw [List.eq_nil_iff_forall_not_mem]
    intro l member
    obtain ⟨place, listed, symbol⟩ := List.mem_filterMap.1 (List.mem_of_mem_filter member)
    obtain ⟨_, _, rfl⟩ := Option.map_eq_some_iff.1 symbol
    have isFilled : place.1.bucket.samples ∈ filled (sections.flatMap (·.counters)) := by
      rw [← samples_locate sections table]
      exact List.mem_map_of_mem listed
    have some : place.1.bucket.samples ≠ 0 := by simpa using List.of_mem_filter isFilled
    exact some (List.sum_eq_zero_iff_forall_eq_nat.1 samples _ (List.mem_map_of_mem member))
  refine (count_found (fun _ => 1) (locate sections table) s).trans ?_
  rw [own]
  rfl

end Attribution

/-- Whether a profile has every sample of some counters once, and every counter that is not
    zero. -/
structure Profile.Accounts (p : Profile) (counters : List Nat) : Prop where
  samples : p.total = counters.sum
  buckets : p.buckets.total + (p.diagnostics.filter (·.kind = "bucket")).length =
    (filled counters).length
  sampled : ∀ s, p.samples.count s = 0 → p.buckets.count s = 0

namespace Profile

variable {p q : Profile} {counters counters' : List Nat}

theorem accounts_empty : empty.Accounts [] where
  samples := rfl
  buckets := rfl
  sampled _ _ := rfl

theorem kind_resolveArcs (arcs : List RawArc) (table : SymbolTable) :
    ∀ d ∈ (resolveArcs arcs table).2, d.kind = "arc" := by
  intro d member
  obtain ⟨a, -, listed⟩ := List.mem_flatMap.1 member
  rcases List.mem_append.1 listed with first | second
  · split at first
    · rw [List.mem_singleton.1 first]
    · cases first
  · split at second
    · rw [List.mem_singleton.1 second]
    · cases second

theorem accounts_ofRecording (table : SymbolTable) (source : String) (r : Recording) :
    (ofRecording table source r).Accounts r.counters where
  samples := Attribution.total_ofSections r.sections table
  buckets := by
    have own := List.filter_eq_self.2 fun d member =>
      decide_eq_true (Attribution.kind_ofSections r.sections table d member)
    have others : (resolveArcs r.arcs table).2.filter (·.kind = "bucket") = [] := by
      rw [List.filter_eq_nil_iff]
      intro d member
      rw [kind_resolveArcs r.arcs table d member]
      decide
    have diagnostics : (ofRecording table source r).diagnostics.filter (·.kind = "bucket") =
        (Attribution.ofSections r.sections table).diagnostics := by
      show ((Attribution.ofSections r.sections table).diagnostics ++
        (resolveArcs r.arcs table).2).filter (·.kind = "bucket") = _
      rw [List.filter_append, own, others, List.append_nil]
    rw [diagnostics]
    exact Attribution.buckets_ofSections r.sections table
  sampled _ := Attribution.buckets_eq_zero

section Sums

variable {ν : Type} [Add ν] [Zero ν]

/-- The sum of two profiles with a rate. -/
def sumAt (p q : Profile ν) (rate : ν) : Profile ν where
  samples := p.samples.merge q.samples
  buckets := p.buckets.merge q.buckets
  arcs := p.arcs.merge q.arcs
  unattributed := p.unattributed + q.unattributed
  sampleRate := rate
  diagnostics := p.diagnostics ++ q.diagnostics
  sources := p.sources ++ q.sources
  blocks := p.blocks + q.blocks

variable [DecidableEq ν] [ToString ν]

theorem add_eq (p q : Profile ν) :
    p.add q = (commonRate p.sampleRate q.sampleRate).map (p.sumAt q) := by
  rw [Profile.add]
  cases commonRate p.sampleRate q.sampleRate <;> rfl

omit [Add ν] in
theorem commonRate_eq (first second : ν) :
    commonRate first second =
      if second = 0 ∨ first = 0 ∨ first = second then .ok (if first = 0 then second else first)
      else .error (.rates (toString first) (toString second)) := by
  rw [commonRate]
  by_cases none : second = 0
  · by_cases start : first = 0 <;> simp [none, start]
  · by_cases start : first = 0
    · simp [none, start]
    · by_cases same : first = second <;> simp [none, start, same]

end Sums

theorem Accounts.sumAt (first : p.Accounts counters) (second : q.Accounts counters')
    (rate : Nat) : (p.sumAt q rate).Accounts (counters ++ counters') where
  samples := by
    have samples := Tally.total_merge p.samples q.samples
    rw [List.sum_append, ← first.samples, ← second.samples]
    simp only [total, attributed, Profile.sumAt, samples]
    omega
  buckets := by
    have buckets := Tally.total_merge p.buckets q.buckets
    rw [filled_append, List.length_append, ← first.buckets, ← second.buckets]
    simp only [Profile.sumAt, buckets, List.filter_append, List.length_append]
    omega
  sampled s none := by
    have samples := Tally.count_merge p.samples q.samples s
    have buckets := Tally.count_merge p.buckets q.buckets s
    rw [Profile.sumAt] at none ⊢
    rw [none] at samples
    refine buckets.trans ?_
    rw [first.sampled s (by omega), second.sampled s (by omega)]

end Profile

end CallProfile
