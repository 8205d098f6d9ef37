import CallProfile.Proofs.Failures

/-! # Units of a sum

The histograms of one file have one rate and one dimension. Files that are added up have one rate
too, but for those without any. Their dimensions are never compared.
-/

namespace CallProfile

/-- What the samples of a histogram are counted in. -/
def Histogram.units (h : Histogram) : Nat × String :=
  (h.sampleRate, h.dimension)

variable {layout : Layout} {order : ByteOrder}

/-! ## One file -/

theorem units_of_compatible {h : Histogram} {s : Section}
    (accepted : checkCompatible (some h) s = .ok ()) : s.histogram.units = h.units := by
  unfold checkCompatible at accepted
  by_cases rate : s.histogram.sampleRate = h.sampleRate
  · by_cases dimension : s.histogram.dimension = h.dimension
    · exact Prod.ext rate dimension
    · simp [rate, dimension] at accepted
  · simp [rate] at accepted

theorem units_of_readRecord {first : Option Histogram} {c rest : Cursor} {s : Section}
    (read : readRecord layout order first c = .ok (.histogram s, rest)) :
    ∀ h ∈ first, s.histogram.units = h.units := by
  rintro h rfl
  obtain ⟨⟨bytes, body⟩, -, read⟩ := bind_eq_ok_iff.1 read
  dsimp only at read
  split at read
  · obtain ⟨⟨s', rest'⟩, -, read⟩ := bind_eq_ok_iff.1 read
    obtain ⟨_, accepted, read⟩ := bind_eq_ok_iff.1 read
    cases read
    exact units_of_compatible accepted
  · split at read
    · obtain ⟨_, -, read⟩ := bind_eq_ok_iff.1 read
      cases read
    · split at read
      · obtain ⟨_, -, read⟩ := bind_eq_ok_iff.1 read
        cases read
      · cases read

/-- Once a record has been read, the first histogram is of the same units as before, and so is the
    one that was read. -/
theorem units_of_firstAfter {first : Option Histogram} {r : Record} {units : Nat × String}
    (follows : ∀ s, r = .histogram s → ∀ h ∈ first, s.histogram.units = h.units)
    (next : ∀ h ∈ firstAfter first r, h.units = units) :
    (∀ h ∈ first, h.units = units) ∧ ∀ s, r = .histogram s → s.histogram.units = units := by
  cases first with
  | none =>
      refine ⟨nofun, ?_⟩
      rintro s rfl
      exact next s.histogram rfl
  | some h =>
      have same : h.units = units := next h (by cases r <;> rfl)
      refine ⟨by simpa using same, ?_⟩
      rintro s rfl
      exact (follows s rfl h rfl).trans same

theorem units_of_readRecords {fuel : Nat} {first : Option Histogram} {c : Cursor}
    {records : List Record} (read : readRecords layout order fuel first c = .ok records) :
    ∃ units, (∀ h ∈ first, h.units = units) ∧
      ∀ s, .histogram s ∈ records → s.histogram.units = units := by
  induction fuel generalizing first c records with
  | zero => cases read
  | succ fuel ih =>
      rw [readRecords] at read
      split at read
      · cases read
        cases first with
        | none => exact ⟨(0, ""), by simp, by simp⟩
        | some h => exact ⟨h.units, by simp, by simp⟩
      · obtain ⟨⟨r, rest⟩, step, read⟩ := bind_eq_ok_iff.1 read
        obtain ⟨others, later, read⟩ := bind_eq_ok_iff.1 read
        cases read
        obtain ⟨units, next, behind⟩ := ih later
        obtain ⟨before, here⟩ := units_of_firstAfter
          (fun s same => units_of_readRecord (same ▸ step)) next
        refine ⟨units, before, fun s member => ?_⟩
        rcases List.mem_cons.1 member with same | member
        · exact here s same.symm
        · exact behind s member

theorem Recording.mem_sections {r : Recording} {s : Section} :
    s ∈ r.sections ↔ .histogram s ∈ r.records := by
  rw [sections, List.mem_filterMap]
  constructor
  · rintro ⟨record, member, found⟩
    cases record <;> cases found
    exact member
  · exact fun member => ⟨_, member, rfl⟩

/-- The histograms of a file have the same rate and the same dimension. -/
theorem units_of_decode {data : List UInt8} {r : Recording} (read : decode layout data = .ok r) :
    ∀ s ∈ r.sections, ∀ s' ∈ r.sections, s.histogram.units = s'.histogram.units := by
  obtain ⟨⟨order, version⟩, -, read⟩ := bind_eq_ok_iff.1 read
  obtain ⟨records, listed, read⟩ := bind_eq_ok_iff.1 read
  cases read
  obtain ⟨units, -, same⟩ := units_of_readRecords listed
  intro s first s' second
  rw [same s (Recording.mem_sections.1 first), same s' (Recording.mem_sections.1 second)]

/-! ## Files that are added up -/

namespace Batch

variable {table : SymbolTable} {inputs : List Input} {input : Input} {r : Recording}

theorem recording_eq_ok (read : input.recording layout = .ok r) :
    ∃ bytes, decode layout bytes = .ok r := by
  obtain ⟨bytes, -, read⟩ := bind_eq_ok_iff.1 read
  exact ⟨bytes, read⟩

theorem rate_of_section (read : input.recording layout = .ok r) {s : Section}
    (member : s ∈ r.sections) : s.histogram.sampleRate = r.sampleRate := by
  obtain ⟨bytes, decoded⟩ := recording_eq_ok read
  have same := units_of_decode decoded
  rw [Recording.sampleRate]
  cases sections : r.sections with
  | nil =>
      rw [sections] at member
      cases member
  | cons first others =>
      have head : first ∈ r.sections := by
        rw [sections]
        exact List.mem_cons_self
      exact congrArg Prod.fst (same s member first head)

/-- An input that is merged has no rate or the rate of the sum. -/
theorem Collects.rate_of_merged {partials : List Profile}
    (collects : Collects layout table inputs partials) (member : input ∈ mergedInputs layout inputs)
    (read : input.recording layout = .ok r) :
    r.sampleRate = 0 ∨ r.sampleRate = (Profile.sumOf partials).sampleRate := by
  by_cases none : r.sampleRate = 0
  · exact .inl none
  · have listed : Profile.ofRecording table input.source r ∈ partials := by
      rw [← filterMap_of_mapM collects.listed]
      refine List.mem_filterMap.2 ⟨input, member, ?_⟩
      rw [profileOf_of_ok read]
      rfl
    have rate := List.mem_map_of_mem (f := Profile.sampleRate) listed
    rw [sampleRate_ofRecording] at rate
    exact .inr (collects.agree.eq_firstRate rate none)

section Results

variable {α : Type} [Times α] {workers : Option Int} {b : Batch α}

theorem collects_of_analyze (made : analyze layout table workers inputs = .ok b) :
    ∃ partials, Collects layout table inputs partials ∧ b.merged = Profile.sumOf partials := by
  obtain ⟨outcomes, listed, merged, -⟩ := results_of_analyze made
  obtain ⟨partials, collects, collected⟩ := collect_eq listed
  rw [collected] at merged
  exact ⟨partials, collects, merged⟩

theorem succeeded_eq (made : analyze layout table workers inputs = .ok b) :
    b.succeeded = (mergedInputs layout inputs).map (·.source) := by
  obtain ⟨partials, collects, merged⟩ := collects_of_analyze made
  rw [succeeded, merged, ← collects.sources]
  rfl

end Results

/-- The files that a batch adds up have one rate, but for those without any. Within each of them
    the histograms have one rate and one dimension. -/
theorem merged_rates_agree (layout : Layout) (table : SymbolTable) (workers : Option Int)
    (inputs : List Input) (α : Type) [Times α] (b : Batch α)
    (made : analyze layout table workers inputs = .ok b) :
    b.succeeded = (mergedInputs layout inputs).map (·.source) ∧
    ∀ input ∈ mergedInputs layout inputs, ∃ r, input.recording layout = .ok r ∧
      (∀ s ∈ r.sections, s.histogram.sampleRate = 0 ∨
        s.histogram.sampleRate = b.merged.sampleRate) ∧
      ∀ s ∈ r.sections, ∀ s' ∈ r.sections, s.histogram.units = s'.histogram.units := by
  refine ⟨succeeded_eq made, fun input member => ?_⟩
  obtain ⟨partials, collects, merged⟩ := collects_of_analyze made
  obtain ⟨p, profile⟩ := exists_of_mapM collects.listed member
  rw [profileOf_eq] at profile
  obtain ⟨r, read, -⟩ := map_eq_ok_iff.1 profile
  obtain ⟨bytes, decoded⟩ := recording_eq_ok read
  refine ⟨r, read, fun s inside => ?_, units_of_decode decoded⟩
  rw [rate_of_section read inside, merged]
  exact collects.rate_of_merged member read

/-- A file with an empty histogram of a rate and a dimension. -/
def unitFile (rate : UInt8) (dimension : List UInt8) : List UInt8 :=
  wideHeader ++ [0] ++ List.replicate 20 0 ++ [rate, 0, 0, 0] ++ dimension ++
    List.replicate (16 - dimension.length) 0

/-- Files that count seconds, cycles, seconds at no rate, and seconds at another rate. -/
def unitInputs : List Input :=
  let seconds : List UInt8 := [0x73, 0x65, 0x63, 0x6f, 0x6e, 0x64, 0x73]
  let cycles : List UInt8 := [0x63, 0x79, 0x63, 0x6c, 0x65, 0x73]
  [ { path := "seconds.out", source := "seconds.out", content := .ok (unitFile 100 seconds) },
    { path := "cycles.out", source := "cycles.out", content := .ok (unitFile 100 cycles) },
    { path := "idle.out", source := "idle.out", content := .ok (unitFile 0 seconds) },
    { path := "slow.out", source := "slow.out", content := .ok (unitFile 50 seconds) } ]

theorem exists_unitInputs :
    ∃ b : Batch Rat, analyze .wide (.ofList []) none unitInputs = .ok b := by
  have listed : unitInputs.mapM (outcome .wide (.ofList [])) = .ok _ := rfl
  exact analyze_exact rfl listed

theorem merged_rates_agree_unitInputs :
    ∃ b : Batch Rat, analyze .wide (.ofList []) none unitInputs = .ok b ∧
      b.succeeded = ["seconds.out", "cycles.out", "idle.out"] ∧
      ∀ input ∈ mergedInputs .wide unitInputs, ∃ r, input.recording .wide = .ok r ∧
        ∀ s ∈ r.sections, s.histogram.sampleRate = 0 ∨
          s.histogram.sampleRate = b.merged.sampleRate := by
  obtain ⟨b, made⟩ := exists_unitInputs
  obtain ⟨succeeded, agree⟩ := merged_rates_agree _ _ _ _ _ b made
  refine ⟨b, made, succeeded.trans rfl, fun input member => ?_⟩
  obtain ⟨r, read, rates, -⟩ := agree input member
  exact ⟨r, read, rates⟩

/-- Whether all histograms of all inputs that are merged have one rate and one dimension. -/
def MergesOneUnit (layout : Layout) (inputs : List Input) : Prop :=
  ∀ input ∈ mergedInputs layout inputs, ∀ input' ∈ mergedInputs layout inputs, ∀ r r',
    input.recording layout = .ok r → input'.recording layout = .ok r' →
      ∀ s ∈ r.sections, ∀ s' ∈ r'.sections, s.histogram.units = s'.histogram.units

/-- Seconds are added to cycles, and to what has no rate. -/
theorem not_mergesOneUnit :
    (∃ b : Batch Rat, analyze .wide (.ofList []) none unitInputs = .ok b ∧
      b.succeeded = ["seconds.out", "cycles.out", "idle.out"]) ∧
    ((mergedInputs .wide unitInputs).map fun input =>
      (input.recording .wide).toOption.map fun r => r.sections.map (·.histogram.units)) =
        [some [(100, "seconds")], some [(100, "cycles")], some [(0, "seconds")]] ∧
    ¬ MergesOneUnit .wide unitInputs := by
  obtain ⟨b, made⟩ := exists_unitInputs
  refine ⟨⟨b, made, (succeeded_eq made).trans rfl⟩, rfl, fun one => ?_⟩
  have same := one _ (.head _) _ (.tail _ (.head _)) _ _ rfl rfl _ (.head _) _ (.head _)
  exact absurd (congrArg Prod.snd same) (by decide)

end Batch

end CallProfile
