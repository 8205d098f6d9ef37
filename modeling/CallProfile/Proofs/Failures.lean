import CallProfile.Proofs.Merging

/-! # Inputs that are left out

A batch leaves out the inputs that cannot be decoded and those whose rate is not the first one.
They leave no trace: without them the batch has the same results.
-/

namespace CallProfile.Batch

open scoped Whole

variable {layout : Layout} {table : SymbolTable} {inputs before : List Input} {input : Input}
  {r : Recording}

/-! ## Which inputs are left out -/

/-- The rates of the inputs that can be decoded. -/
def decodedRates (layout : Layout) (inputs : List Input) : List Nat :=
  inputs.filterMap fun input => (input.recording layout).toOption.map (·.sampleRate)

/-- Whether an input behind others is merged: it can be decoded, and it has no rate or the first
    rate of the inputs that can be decoded, itself included. -/
def isMerged (layout : Layout) (before : List Input) (input : Input) : Bool :=
  match input.recording layout with
  | .error _ => false
  | .ok r => r.sampleRate = 0 ∨ r.sampleRate = firstRate (decodedRates layout (before ++ [input]))

/-- Why an input behind others is left out, when it is. -/
def faultOf (layout : Layout) (before : List Input) (input : Input) : Fault :=
  match input.recording layout with
  | .error fault => fault
  | .ok r => .rates (toString (firstRate (decodedRates layout before))) (toString r.sampleRate)

/-- Every input, with those before it. -/
def withBefore (inputs : List Input) : List (List Input × Input) :=
  inputs.zipIdx.map fun x => (inputs.take x.2, x.1)

/-- The inputs that are merged. -/
def mergedInputs (layout : Layout) (inputs : List Input) : List Input :=
  ((withBefore inputs).filter fun x => isMerged layout x.1 x.2).map (·.2)

/-- The inputs that are left out, and why. -/
def failuresOf (layout : Layout) (inputs : List Input) : List Failure :=
  ((withBefore inputs).filter fun x => !isMerged layout x.1 x.2).map fun x =>
    { path := x.2.path, fault := faultOf layout x.1 x.2 }

/-! ## One more input -/

theorem withBefore_append_singleton (inputs : List Input) (input : Input) :
    withBefore (inputs ++ [input]) = withBefore inputs ++ [(inputs, input)] := by
  have same : ∀ x ∈ inputs.zipIdx,
      ((inputs ++ [input]).take x.2, x.1) = (inputs.take x.2, x.1) := by
    intro x member
    have below := (List.mem_zipIdx member).2.1
    rw [List.take_append_of_le_length (by omega)]
  rw [withBefore, List.zipIdx_append, List.map_append, List.map_congr_left same]
  simp [withBefore]

theorem mergedInputs_append_singleton (layout : Layout) (inputs : List Input) (input : Input) :
    mergedInputs layout (inputs ++ [input]) =
      mergedInputs layout inputs ++ if isMerged layout inputs input then [input] else [] := by
  rw [mergedInputs, withBefore_append_singleton, List.filter_append, List.map_append]
  cases chosen : isMerged layout inputs input <;> simp [mergedInputs, chosen]

theorem failuresOf_append_singleton (layout : Layout) (inputs : List Input) (input : Input) :
    failuresOf layout (inputs ++ [input]) =
      failuresOf layout inputs ++ if isMerged layout inputs input then []
        else [{ path := input.path, fault := faultOf layout inputs input }] := by
  rw [failuresOf, withBefore_append_singleton, List.filter_append, List.map_append]
  cases chosen : isMerged layout inputs input <;> simp [failuresOf, chosen]

theorem decodedRates_append_singleton (layout : Layout) (inputs : List Input) (input : Input) :
    decodedRates layout (inputs ++ [input]) = decodedRates layout inputs ++
      ((input.recording layout).toOption.map (·.sampleRate)).toList := by
  rw [decodedRates, List.filterMap_append, decodedRates]
  cases read : input.recording layout <;>
    simp [read, Except.toOption]

theorem decodedRates_of_ok (read : input.recording layout = .ok r) :
    decodedRates layout (inputs ++ [input]) = decodedRates layout inputs ++ [r.sampleRate] := by
  rw [decodedRates_append_singleton, read]
  rfl

theorem firstRate_of_ok (read : input.recording layout = .ok r) :
    firstRate (decodedRates layout (inputs ++ [input])) =
      if firstRate (decodedRates layout inputs) = 0 then r.sampleRate
      else firstRate (decodedRates layout inputs) := by
  rw [decodedRates_of_ok read, firstRate_append, firstRate_singleton]

theorem isMerged_of_ok (read : input.recording layout = .ok r) :
    isMerged layout before input = true ↔
      r.sampleRate = 0 ∨ firstRate (decodedRates layout before) = 0 ∨
        firstRate (decodedRates layout before) = r.sampleRate := by
  rw [isMerged, read]
  simp only [decide_eq_true_eq, firstRate_of_ok read]
  by_cases start : firstRate (decodedRates layout before) = 0
  · simp [start]
  · simp [start, eq_comm]

theorem isMerged_of_error {fault : Fault} (read : input.recording layout = .error fault) :
    isMerged layout before input = false := by
  rw [isMerged, read]

theorem isMerged_congr {other : List Input}
    (same : firstRate (decodedRates layout before) = firstRate (decodedRates layout other)) :
    isMerged layout before input = isMerged layout other input := by
  cases read : input.recording layout with
  | error fault => rw [isMerged_of_error read, isMerged_of_error read]
  | ok r => rw [Bool.eq_iff_iff, isMerged_of_ok read, isMerged_of_ok read, same]

theorem firstRate_of_not_merged (rejected : isMerged layout inputs input = false) :
    firstRate (decodedRates layout (inputs ++ [input])) =
      firstRate (decodedRates layout inputs) := by
  cases read : input.recording layout with
  | error fault =>
      rw [decodedRates_append_singleton, read]
      exact congrArg firstRate (List.append_nil _)
  | ok r =>
      rw [firstRate_of_ok read]
      by_cases start : firstRate (decodedRates layout inputs) = 0
      · have merged := (isMerged_of_ok read).2 (.inr (.inl start))
        rw [rejected] at merged
        cases merged
      · rw [if_neg start]

/-! ## The inputs that are merged -/

theorem firstRate_mergedInputs (layout : Layout) (inputs : List Input) :
    firstRate (decodedRates layout (mergedInputs layout inputs)) =
      firstRate (decodedRates layout inputs) := by
  induction inputs using List.reverseRecOn with
  | nil => rfl
  | append_singleton inputs input ih =>
      rw [mergedInputs_append_singleton]
      cases merged : isMerged layout inputs input with
      | false =>
          rw [if_neg (by simp), List.append_nil, firstRate_of_not_merged merged, ih]
      | true =>
          rw [if_pos rfl, decodedRates_append_singleton, decodedRates_append_singleton,
            firstRate_append, firstRate_append, ih]

theorem isMerged_mergedInputs :
    isMerged layout (mergedInputs layout inputs) input = isMerged layout inputs input :=
  isMerged_congr (firstRate_mergedInputs layout inputs)

theorem mergedInputs_idem (layout : Layout) (inputs : List Input) :
    mergedInputs layout (mergedInputs layout inputs) = mergedInputs layout inputs ∧
      failuresOf layout (mergedInputs layout inputs) = [] := by
  induction inputs using List.reverseRecOn with
  | nil => exact ⟨rfl, rfl⟩
  | append_singleton inputs input ih =>
      obtain ⟨same, none⟩ := ih
      rw [mergedInputs_append_singleton]
      cases merged : isMerged layout inputs input with
      | false =>
          rw [if_neg (by simp), List.append_nil]
          exact ⟨same, none⟩
      | true =>
          rw [if_pos rfl, mergedInputs_append_singleton, failuresOf_append_singleton,
            isMerged_mergedInputs, merged, if_pos rfl, if_pos rfl, same, none]
          exact ⟨rfl, rfl⟩

theorem mergedInputs_subset (layout : Layout) (inputs : List Input) :
    ∀ input ∈ mergedInputs layout inputs, input ∈ inputs := by
  intro input member
  obtain ⟨x, listed, rfl⟩ := List.mem_map.1 member
  obtain ⟨y, place, rfl⟩ := List.mem_map.1 (List.mem_of_mem_filter listed)
  exact List.fst_mem_of_mem_zipIdx place

/-! ## What a batch collects -/

/-- What is collected of inputs: the sum of those that are merged, and the others. -/
structure Collects (layout : Layout) (table : SymbolTable) (inputs : List Input)
    (partials : List Profile) : Prop where
  listed : (mergedInputs layout inputs).mapM (profileOf layout table) = .ok partials
  rate : firstRate (Profile.rates partials) = firstRate (decodedRates layout inputs)
  agree : RatesAgree (Profile.rates partials)
  sources : partials.flatMap (·.sources) = (mergedInputs layout inputs).map (·.source)

theorem profileOf_of_ok (read : input.recording layout = .ok r) :
    profileOf layout table input = .ok (Profile.ofRecording table input.source r) := by
  rw [profileOf_eq, read]
  rfl

theorem exists_of_isMerged (merged : isMerged layout before input = true) :
    ∃ r, input.recording layout = .ok r := by
  cases read : input.recording layout with
  | error fault =>
      rw [isMerged_of_error read] at merged
      cases merged
  | ok r => exact ⟨r, rfl⟩

namespace Collects

variable {partials : List Profile} {failures : List Failure} {o : Outcome}

theorem sampleRate (collects : Collects layout table inputs partials) :
    (Profile.sumOf partials).sampleRate = firstRate (decodedRates layout inputs) :=
  collects.rate

/-- An input that is left out is kept as a failure, and the sum stays as it is. -/
theorem add_rejected (collects : Collects layout table inputs partials)
    (rejected : isMerged layout inputs input = false)
    (came : outcome layout table input = .ok o) :
    Progress.add { merged := Profile.sumOf partials, failures } o =
      { merged := Profile.sumOf partials
        failures := failures ++
          [{ path := input.path, fault := faultOf layout inputs input }] } := by
  cases read : input.recording layout with
  | error fault =>
      rw [outcome_of_error read] at came
      rw [faultOf, read]
      split at came
      · cases came
        rfl
      · cases came
  | ok r =>
      have differs := mt (isMerged_of_ok read).2 (by rw [rejected]; exact Bool.false_ne_true)
      rw [outcome_of_ok read] at came
      cases came
      rw [← collects.sampleRate] at differs
      rw [add_ofRecording, if_neg differs, faultOf, read, collects.sampleRate]

/-- The profile of an input that is merged is added to the sum. -/
theorem add_merged (collects : Collects layout table inputs partials)
    (read : input.recording layout = .ok r) (merged : isMerged layout inputs input = true)
    (came : outcome layout table input = .ok o) :
    Progress.add { merged := Profile.sumOf partials, failures } o =
      { merged := Profile.sumOf (partials ++ [Profile.ofRecording table input.source r])
        failures } := by
  have agrees := (isMerged_of_ok read).1 merged
  rw [outcome_of_ok read] at came
  cases came
  rw [← collects.sampleRate] at agrees
  rw [add_ofRecording, if_pos agrees, Profile.sumOf_append, Profile.sumOf_singleton, Profile.plus,
    sampleRate_ofRecording]

theorem rejected (collects : Collects layout table inputs partials)
    (rejected : isMerged layout inputs input = false) :
    Collects layout table (inputs ++ [input]) partials := by
  have same : mergedInputs layout (inputs ++ [input]) = mergedInputs layout inputs := by
    rw [mergedInputs_append_singleton, rejected]
    exact List.append_nil _
  refine ⟨?_, ?_, collects.agree, ?_⟩
  · rw [same, collects.listed]
  · rw [firstRate_of_not_merged rejected, collects.rate]
  · rw [same, collects.sources]

theorem merged (collects : Collects layout table inputs partials)
    (read : input.recording layout = .ok r) (merged : isMerged layout inputs input = true) :
    Collects layout table (inputs ++ [input])
      (partials ++ [Profile.ofRecording table input.source r]) := by
  have more : mergedInputs layout (inputs ++ [input]) = mergedInputs layout inputs ++ [input] := by
    rw [mergedInputs_append_singleton, merged]
    rfl
  have rate := sampleRate_ofRecording table input.source r
  refine ⟨?_, ?_, ?_, ?_⟩
  · rw [more, mapM_append_singleton_eq_ok_iff]
    exact ⟨partials, _, collects.listed, profileOf_of_ok read, rfl⟩
  · rw [Profile.rates_append, firstRate_append, firstRate_of_ok read, collects.rate]
    exact congrArg (ite _ · _) ((firstRate_singleton _).trans rate)
  · rw [Profile.ratesAgree_append_singleton, rate, collects.rate]
    exact ⟨collects.agree, (isMerged_of_ok read).1 merged⟩
  · rw [more, List.flatMap_append, List.map_append, collects.sources]
    rfl

end Collects

/-- What a batch collects: the sum of the inputs that are merged, and the others as failures. -/
theorem collect_eq {outcomes : List Outcome}
    (listed : inputs.mapM (outcome layout table) = .ok outcomes) :
    ∃ partials, Collects layout table inputs partials ∧
      collect outcomes =
        { merged := Profile.sumOf partials, failures := failuresOf layout inputs } := by
  -- on the inputs from the left, as the rate that counts is that of the inputs before
  induction inputs using List.reverseRecOn generalizing outcomes with
  | nil =>
      cases listed
      exact ⟨[], ⟨rfl, rfl, nofun, rfl⟩, rfl⟩
  | append_singleton inputs input ih =>
      obtain ⟨os, o, first, came, rfl⟩ := mapM_append_singleton_eq_ok_iff.1 listed
      obtain ⟨partials, collects, collected⟩ := ih first
      have last : collect (os ++ [o]) = (collect os).add o := List.foldl_append
      rw [last, collected, failuresOf_append_singleton]
      cases merged : isMerged layout inputs input with
      | false => exact ⟨partials, collects.rejected merged, collects.add_rejected merged came⟩
      | true =>
          obtain ⟨r, read⟩ := exists_of_isMerged merged
          refine ⟨_, collects.merged read merged, (collects.add_merged read merged came).trans ?_⟩
          rw [if_pos rfl, List.append_nil]

/-! ## Batches with and without failures -/

section Results

variable {α : Type} [Times α] {workers : Option Int}

theorem checkWorkers_of_pos (enough : ∀ count ∈ workers, 1 ≤ count) :
    checkWorkers workers = .ok () := by
  cases workers with
  | none => rfl
  | some count =>
      have some := enough count rfl
      exact if_neg (by omega)

/-- The results for a sum of profiles. -/
def resultsOf (merged : Profile) (failures : List Failure) : Except Fault (Batch α) := do
  let graph ← merged.callGraph
  let tree ← merged.treeOf graph
  return { merged, graph, tree, failures }

theorem resultsOf_nil (merged : Profile) (failures : List Failure) :
    (resultsOf merged [] : Except Fault (Batch α)) =
      (resultsOf merged failures).map fun b => { b with failures := [] } := by
  rw [resultsOf, resultsOf]
  cases (merged.callGraph : Except Fault (CallGraph α)) with
  | error fault => rfl
  | ok graph =>
      simp only [bind, Except.bind]
      cases merged.treeOf graph <;> rfl

theorem analyze_eq_resultsOf (checked : checkWorkers workers = .ok ()) {outcomes : List Outcome}
    (listed : inputs.mapM (outcome layout table) = .ok outcomes) :
    ∃ partials, Collects layout table inputs partials ∧
      (analyze layout table workers inputs : Except Fault (Batch α)) =
        resultsOf (Profile.sumOf partials) (failuresOf layout inputs) := by
  obtain ⟨partials, collects, collected⟩ := collect_eq listed
  refine ⟨partials, collects, ?_⟩
  rw [analyze_eq checked listed, collected]
  rfl

theorem of_resultsOf {merged : Profile} {failures : List Failure} {b : Batch α}
    (made : resultsOf merged failures = .ok b) :
    b.merged = merged ∧ b.failures = failures ∧ merged.callGraph = .ok b.graph ∧
      merged.treeOf b.graph = .ok b.tree := by
  rw [resultsOf] at made
  obtain ⟨graph, first, made⟩ := bind_eq_ok_iff.1 made
  obtain ⟨tree, second, made⟩ := bind_eq_ok_iff.1 made
  cases made
  exact ⟨rfl, rfl, first, second⟩

end Results

/-- An input that fails leaves no trace. Every input is merged or is a failure, both in the order
    of the inputs; the sum is that of the inputs that are merged; and without the others the batch
    has the same results, and no failures. -/
theorem failures_leave_no_trace (layout : Layout) (table : SymbolTable) {workers : Option Int}
    {inputs : List Input} (enough : ∀ count ∈ workers, 1 ≤ count)
    (named : ∀ input ∈ inputs, ∀ fault, input.recording layout = .error fault →
      fault.inputName?.isSome) :
    (∃ b : Batch Rat, analyze layout table workers inputs = .ok b) ∧
    ∀ (α : Type) [Times α],
      (∀ fault, (analyze layout table workers inputs : Except Fault (Batch α)) = .error fault →
        fault = .overflow) ∧
      (∀ b : Batch α, analyze layout table workers inputs = .ok b →
        b.succeeded = (mergedInputs layout inputs).map (·.source) ∧
        b.failures = failuresOf layout inputs ∧
        ∃ partials, (mergedInputs layout inputs).mapM (profileOf layout table) = .ok partials ∧
          Profile.merge partials = .ok b.merged) ∧
      (analyze layout table workers (mergedInputs layout inputs) : Except Fault (Batch α)) =
        (analyze layout table workers inputs).map fun b => { b with failures := [] } := by
  have checked := checkWorkers_of_pos enough
  have each := fun input member => exists_outcome_of_named table (named input member)
  obtain ⟨outcomes, listed⟩ := exists_outcomes each
  obtain ⟨outcomes', listed'⟩ := exists_outcomes fun input member =>
    each input (mergedInputs_subset layout inputs input member)
  refine ⟨analyze_exact checked listed, fun α _ => ⟨?_, ?_, ?_⟩⟩
  · intro fault failed
    rcases analyze_or_overflow (α := α) checked listed with ⟨b, made⟩ | overflow
    · exact absurd failed (ne_error_of_ok made)
    · exact Except.error.inj (failed.symm.trans overflow)
  · intro b made
    obtain ⟨partials, collects, same⟩ := analyze_eq_resultsOf (α := α) checked listed
    obtain ⟨merged, failures, -⟩ := of_resultsOf (same.symm.trans made)
    refine ⟨?_, failures, partials, collects.listed, ?_⟩
    · rw [succeeded, merged, ← collects.sources]
      rfl
    · rw [Profile.merge_of_agree collects.agree, merged]
  · obtain ⟨partials, collects, same⟩ := analyze_eq_resultsOf (α := α) checked listed
    obtain ⟨partials', collects', same'⟩ := analyze_eq_resultsOf (α := α) checked listed'
    obtain ⟨merged, none⟩ := mergedInputs_idem layout inputs
    have listed' := collects'.listed
    rw [merged, collects.listed] at listed'
    cases listed'
    rw [same, same', none, resultsOf_nil]

/-- A file with an empty histogram. -/
def rateFile (rate : UInt8) : List UInt8 :=
  wideHeader ++ [0] ++ List.replicate 20 0 ++ [rate, 0, 0, 0] ++ List.replicate 16 0

/-- A file that cannot be read, one with a rate of a hundred, one with another rate, one without
    a rate, and one that is cut. -/
def mixedInputs : List Input :=
  [ { path := "gone.out", source := "gone.out", content := .error (.file .missing "gone.out") },
    { path := "fast.out", source := "fast.out", content := .ok (rateFile 100) },
    { path := "slow.out", source := "slow.out", content := .ok (rateFile 50) },
    { path := "bare.out", source := "bare.out", content := .ok wideHeader },
    { path := "cut.out", source := "cut.out", content := .ok (wideHeader ++ [1]) } ]

theorem mixedInputs_named : ∀ input ∈ mixedInputs, ∀ fault,
    input.recording .wide = .error fault → fault.inputName?.isSome := by
  intro input member fault failed
  simp only [mixedInputs, List.mem_cons, List.not_mem_nil, or_false] at member
  rcases member with rfl | rfl | rfl | rfl | rfl <;> cases failed <;> rfl

theorem failures_leave_no_trace_mixedInputs :
    (∀ count ∈ some 2, (1 : Int) ≤ count) ∧
    (mergedInputs .wide mixedInputs).map (·.source) = ["fast.out", "bare.out"] ∧
    ∃ b : Batch Rat, analyze .wide (.ofList []) (some 2) mixedInputs = .ok b ∧
      b.succeeded = ["fast.out", "bare.out"] ∧
      b.failures.map (·.path) = ["gone.out", "slow.out", "cut.out"] := by
  have enough : ∀ count ∈ some 2, (1 : Int) ≤ count := by simp
  have merged : (mergedInputs .wide mixedInputs).map (·.source) = ["fast.out", "bare.out"] := rfl
  obtain ⟨⟨b, made⟩, results⟩ := failures_leave_no_trace .wide (.ofList []) enough
    mixedInputs_named
  obtain ⟨succeeded, failures, -⟩ := (results Rat).2.1 b made
  refine ⟨enough, merged, b, made, succeeded.trans merged, ?_⟩
  rw [failures]
  rfl

end CallProfile.Batch
