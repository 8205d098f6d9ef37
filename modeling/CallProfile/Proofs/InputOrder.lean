import CallProfile.Proofs.AlikeTrees
import CallProfile.Proofs.Failures

/-! # The order of inputs

The results of a batch do not depend on the order of its inputs, as long as their rates agree and
no two symbols of the table share both name and start.
-/

namespace CallProfile

open scoped Whole

/-! ## The symbols of a table -/

namespace SymbolTable

variable {table : SymbolTable} {address : Int} {s : Symbol}

theorem eq_of_better {best : Option Symbol} {c : Symbol}
    (taken : better address best c = some s) : best = some s ∨ c = s := by
  unfold better at taken
  split at taken
  · split at taken
    · exact .inr (Option.some.inj taken)
    · split at taken
      · exact .inr (Option.some.inj taken)
      · exact .inl taken
  · exact .inl taken

theorem mem_of_foldl_better {candidates : List Symbol} {best : Option Symbol}
    (found : candidates.foldl (better address) best = some s) : best = some s ∨ s ∈ candidates := by
  induction candidates generalizing best with
  | nil => exact .inl found
  | cons c candidates ih =>
      rcases ih found with taken | later
      · rcases eq_of_better taken with first | rfl
        · exact .inl first
        · exact .inr List.mem_cons_self
      · exact .inr (List.mem_cons_of_mem c later)

theorem mem_of_resolve (found : table.resolve address = some s) : s ∈ table.symbols := by
  rcases mem_of_foldl_better found with none | candidate
  · cases none
  · have reached := List.mem_reverse.1 ((List.takeWhile_sublist _).mem candidate)
    exact (List.takeWhile_sublist _).mem reached

end SymbolTable

theorem Tally.Reordered.mapAmounts {κ : Type} [DecidableEq κ] {t u : Tally κ Nat}
    (reordered : t.Reordered u) :
    (t.mapAmounts Int.ofNat).Reordered (u.mapAmounts Int.ofNat) where
  keys := by
    have same : ∀ t : Tally κ Nat, (t.mapAmounts Int.ofNat).keys = t.keys := fun _ => List.map_map
    rw [same, same]
    exact reordered.keys
  counts k := by rw [count_mapAmounts, count_mapAmounts, reordered.counts]

namespace Profile

/-- Whether every symbol of a profile is one of a table. -/
structure KnownTo (table : SymbolTable) (p : Profile) : Prop where
  samples : ∀ s ∈ p.samples.keys, s ∈ table.symbols
  arcs : ∀ e ∈ p.arcs.keys, e.1 ∈ table.symbols ∧ e.2 ∈ table.symbols

variable {table : SymbolTable} {p q : Profile} {profiles : List Profile}

theorem knownTo_ofRecording (table : SymbolTable) (source : String) (r : Recording) :
    (ofRecording table source r).KnownTo table where
  samples s present := by
    obtain ⟨e, member, rfl⟩ := (Tally.mem_keys_ofList _ _).1 present
    obtain ⟨l, found, rfl⟩ := List.mem_map.1 member
    obtain ⟨located, listed, there⟩ := List.mem_filterMap.1 found
    obtain ⟨reading, -, rfl⟩ := List.mem_map.1 listed
    obtain ⟨s, resolved, rfl⟩ := Option.map_eq_some_iff.1 there
    exact SymbolTable.mem_of_resolve resolved
  arcs e present := by
    obtain ⟨f, member, rfl⟩ := (Tally.mem_keys_ofList _ _).1 present
    obtain ⟨a, joined, rfl⟩ := List.mem_map.1 member
    obtain ⟨located, listed, there⟩ := List.mem_filterMap.1 joined
    obtain ⟨raw, -, rfl⟩ := List.mem_map.1 listed
    obtain ⟨caller, first, there⟩ := Option.bind_eq_some_iff.1 there
    obtain ⟨callee, second, there⟩ := Option.bind_eq_some_iff.1 there
    cases there
    exact ⟨SymbolTable.mem_of_resolve first, SymbolTable.mem_of_resolve second⟩

theorem knownTo_sumOf (each : ∀ p ∈ profiles, p.KnownTo table) :
    (sumOf profiles).KnownTo table where
  samples s present := by
    obtain ⟨e, member, rfl⟩ := (Tally.mem_keys_ofList _ _).1 present
    obtain ⟨p, listed, entry⟩ := List.mem_flatMap.1 member
    exact (each p listed).samples e.1 (List.mem_map_of_mem entry)
  arcs e present := by
    obtain ⟨e, member, rfl⟩ := (Tally.mem_keys_ofList _ _).1 present
    obtain ⟨p, listed, entry⟩ := List.mem_flatMap.1 member
    exact (each p listed).arcs e.1 (List.mem_map_of_mem entry)

theorem KnownTo.symbols (known : p.KnownTo table) {s : Symbol}
    (inside : s ∈ Arc.symbols (Arc.ofTally p.arcs)) : s ∈ table.symbols := by
  obtain ⟨a, member, ends⟩ := Arc.mem_symbols.1 inside
  obtain ⟨e, entry, rfl⟩ := List.mem_map.1 member
  obtain ⟨caller, callee⟩ := known.arcs e.1 (List.mem_map_of_mem entry)
  rcases ends with rfl | rfl
  · exact caller
  · exact callee

theorem KnownTo.mem_symbolsOf (known : p.KnownTo table) {α : Type}
    {nodes : List (CallNode α)}
    (nodesKnown : ∀ s ∈ nodes.map (·.symbol), s ∈ table.symbols) {s : Symbol}
    (inside : s ∈ Tree.symbolsOf p.treeSamples nodes) : s ∈ table.symbols := by
  rcases List.mem_append.1 (List.mem_eraseDups.1 inside) with sampled | called
  · obtain ⟨e, member, rfl⟩ := List.mem_map.1 sampled
    obtain ⟨f, entry, rfl⟩ := List.mem_map.1 (List.mem_of_mem_filter member)
    exact known.samples f.1 (List.mem_map_of_mem entry)
  · exact nodesKnown s called

/-! ## The results of a profile -/

section Results

variable {α : Type} [Times α] {g g' : CallGraph α} {t u : Tree α}

theorem Reordered.treeSamples (reordered : p.Reordered q) :
    p.treeSamples.Reordered q.treeSamples where
  samples := reordered.samples.mapAmounts
  buckets := reordered.buckets.mapAmounts
  unattributed := congrArg Int.ofNat reordered.unattributed
  sampleRate := congrArg Int.ofNat reordered.sampleRate
  diagnostics := reordered.diagnostics

theorem components_of_callGraph (made : p.callGraph = .ok g) :
    ∃ components,
      CallGraph.IsCharged (Arc.ofTally p.arcs) (fun s => p.samples.count s) components ∧
      g = CallGraph.ofComponents (Arc.merge (Arc.ofTally p.arcs)) (fun s => p.samples.count s)
        components :=
  CallGraph.exists_components made

/-- Profiles with the same content have the same tree. -/
theorem Reordered.alike_trees {exact : Prop} (reordered : p.Reordered q) (known : p.KnownTo table)
    (separated : Separated (· ∈ table.symbols))
    (solved : exact → CallGraph.UniqueTimes α)
    (graph : p.callGraph = .ok g) (graph' : q.callGraph = .ok g')
    (tree : p.treeOf g = .ok t) (tree' : q.treeOf g' = .ok u) :
    ∃ number, t.Alike exact number u := by
  obtain ⟨components, charged, rfl⟩ := components_of_callGraph graph
  obtain ⟨components', charged', rfl⟩ := components_of_callGraph graph'
  have times : (fun s => (q.samples.count s : Int)) = fun s => (p.samples.count s : Int) := by
    funext s
    rw [reordered.samples.counts]
  rw [times] at charged' tree'
  -- the ends of the arcs are symbols of the table, so they can be told apart
  have rearranged : CallGraph.Rearranged (Arc.ofTally p.arcs) (Arc.ofTally q.arcs)
      (fun s => p.samples.count s) components components' :=
    { perm := reordered.arcs.entries.map _
      separated := fun s t first second =>
        separated s t (known.symbols first) (known.symbols second)
      first := charged
      second := charged' }
  rw [tree_of_treeOf tree, tree_of_treeOf tree']
  have graphs := rearranged.alike fun isExact => solved isExact rearranged
  refine ⟨_, Tree.alike_assemble reordered.treeSamples graphs ?_ charged.head_mem_nodes
    charged'.head_mem_nodes charged'.hasCycles.numbers_nodup⟩
  have nodesKnown := fun s inside =>
    known.symbols ((charged.hasCycles.mem_symbols s).1 inside)
  intro s t first second
  exact separated s t (known.mem_symbolsOf nodesKnown first) (known.mem_symbolsOf nodesKnown second)

end Results

end Profile

namespace Batch

variable {layout : Layout} {table : SymbolTable} {inputs other before : List Input}
  {input : Input} {r : Recording}

/-! ## Inputs whose rates agree -/

theorem isMerged_of_agree (agree : RatesAgree (decodedRates layout (before ++ [input])))
    (read : input.recording layout = .ok r) : isMerged layout before input = true := by
  rw [decodedRates_of_ok read, RatesAgree.append_iff, firstRate_singleton] at agree
  exact (isMerged_of_ok read).2 agree.2.2

theorem mergedInputs_of_agree (agree : RatesAgree (decodedRates layout inputs)) :
    mergedInputs layout inputs =
      inputs.filter fun input => (input.recording layout).toOption.isSome := by
  -- on the inputs from the left, as each is compared with those before it
  induction inputs using List.reverseRecOn with
  | nil => rfl
  | append_singleton inputs input ih =>
      have first := agree
      rw [decodedRates_append_singleton] at first
      rw [mergedInputs_append_singleton, List.filter_append,
        ih (RatesAgree.append_iff.1 first).1]
      cases read : input.recording layout with
      | error fault =>
          rw [isMerged_of_error read]
          simp [read, Except.toOption]
      | ok r =>
          rw [isMerged_of_agree agree read]
          simp [read, Except.toOption]

theorem mergedInputs_perm (rearranged : inputs.Perm other)
    (agree : RatesAgree (decodedRates layout inputs)) :
    (mergedInputs layout inputs).Perm (mergedInputs layout other) := by
  have agree' := agree.of_perm (rearranged.filterMap _)
  rw [mergedInputs_of_agree agree, mergedInputs_of_agree agree']
  exact rearranged.filter _

namespace Collects

variable {partials partials' : List Profile}

theorem perm (collects : Collects layout table inputs partials)
    (collects' : Collects layout table other partials') (rearranged : inputs.Perm other)
    (agree : RatesAgree (decodedRates layout inputs)) : partials.Perm partials' := by
  rw [← filterMap_of_mapM collects.listed, ← filterMap_of_mapM collects'.listed]
  exact (mergedInputs_perm rearranged agree).filterMap _

theorem knownTo (collects : Collects layout table inputs partials) :
    (Profile.sumOf partials).KnownTo table := by
  refine Profile.knownTo_sumOf fun p member => ?_
  rw [← filterMap_of_mapM collects.listed] at member
  obtain ⟨input, -, made⟩ := List.mem_filterMap.1 member
  rw [profileOf_eq] at made
  cases read : input.recording layout with
  | error fault =>
      rw [read] at made
      cases made
  | ok r =>
      rw [read] at made
      cases made
      exact Profile.knownTo_ofRecording table input.source r

end Collects

/-! ## The results -/

variable {α : Type} [Times α] {workers : Option Int} {b b' : Batch α}

theorem checked_of_analyze (made : analyze layout table workers inputs = .ok b) :
    checkWorkers workers = .ok () := by
  rw [analyze] at made
  obtain ⟨_, checked, -⟩ := bind_eq_ok_iff.1 made
  exact checked

theorem alike_of_perm {exact : Prop} (rearranged : inputs.Perm other)
    (agree : RatesAgree (decodedRates layout inputs)) (separated : Separated (· ∈ table.symbols))
    (solved : exact → CallGraph.UniqueTimes α)
    (made : analyze layout table workers inputs = .ok b)
    (made' : analyze layout table workers other = .ok b') :
    ∃ number, b.tree.Alike exact number b'.tree := by
  have checked := checked_of_analyze made
  obtain ⟨outcomes, listed, -⟩ := results_of_analyze made
  obtain ⟨outcomes', listed', -⟩ := results_of_analyze made'
  obtain ⟨partials, collects, results⟩ := analyze_eq_resultsOf (α := α) checked listed
  obtain ⟨partials', collects', results'⟩ := analyze_eq_resultsOf (α := α) checked listed'
  obtain ⟨-, -, graph, tree⟩ := of_resultsOf (results.symm.trans made)
  obtain ⟨-, -, graph', tree'⟩ := of_resultsOf (results'.symm.trans made')
  have reordered := Profile.reordered_sumOf (collects.perm collects' rearranged agree)
    collects.agree
  exact reordered.alike_trees collects.knownTo separated solved graph graph' tree tree'

/-- The order of the inputs does not show in the tree. Inputs whose rates agree have, in any order
    and with exact fractions, results with the same tree, but for the numbers of the cycles and
    for the order of cycles and edges. With other numbers what is not shared out is the same. -/
theorem tree_same_in_any_order (layout : Layout) (table : SymbolTable) (workers : Option Int)
    {inputs other : List Input} (rearranged : inputs.Perm other)
    (agree : RatesAgree (decodedRates layout inputs))
    (separated : Separated (· ∈ table.symbols)) :
    ((∀ count ∈ workers, 1 ≤ count) →
      (∀ input ∈ inputs, ∀ fault, input.recording layout = .error fault →
        fault.inputName?.isSome) →
      ∃ b : Batch Rat, analyze layout table workers inputs = .ok b) ∧
    (∀ b : Batch Rat, analyze layout table workers inputs = .ok b →
      ∃ b' : Batch Rat, analyze layout table workers other = .ok b' ∧
        ∃ number, b.tree.Alike True number b'.tree) ∧
    ∀ (α : Type) [Times α] (b b' : Batch α), analyze layout table workers inputs = .ok b →
      analyze layout table workers other = .ok b' →
      ∃ number, b.tree.Alike False number b'.tree := by
  refine ⟨?_, ?_, ?_⟩
  · intro enough named
    obtain ⟨outcomes, listed⟩ := exists_outcomes fun input member =>
      exists_outcome_of_named table (named input member)
    exact analyze_exact (checkWorkers_of_pos enough) listed
  · intro b made
    obtain ⟨outcomes, listed, -⟩ := results_of_analyze made
    obtain ⟨outcomes', listed'⟩ := exists_outcomes fun input member =>
      exists_of_mapM listed (rearranged.mem_iff.2 member)
    obtain ⟨b', made'⟩ := analyze_exact (checked_of_analyze made) listed'
    exact ⟨b', made', alike_of_perm rearranged agree separated
      (fun _ => CallGraph.uniqueTimes_exact) made made'⟩
  · intro α _ b b' made made'
    exact alike_of_perm rearranged agree separated False.elim made made'

/-- A file with one call. -/
def callFile (source target : UInt8) : List UInt8 :=
  wideHeader ++ [1] ++ [source, 0, 0, 0, 0, 0, 0, 0] ++ [target, 0, 0, 0, 0, 0, 0, 0] ++
    [1, 0, 0, 0]

/-- Two files with a call each, in a circle, one that cannot be read and one with a rate. -/
def circleInputs : List Input :=
  [ { path := "ping.out", source := "ping.out", content := .ok (callFile 16 32) },
    { path := "pong.out", source := "pong.out", content := .ok (callFile 32 16) },
    { path := "gone.out", source := "gone.out", content := .error (.file .missing "gone.out") },
    { path := "fast.out", source := "fast.out", content := .ok (rateFile 100) } ]

/-- Two symbols that differ in name and start. -/
def circleTable : SymbolTable :=
  .ofList [⟨"ping", 16, 32, none, by decide⟩, ⟨"pong", 32, 48, some "pong.c", by decide⟩]

theorem tree_same_in_any_order_circle :
    RatesAgree (decodedRates .wide circleInputs) ∧ Separated (· ∈ circleTable.symbols) ∧
    ∃ b b' : Batch Rat, analyze .wide circleTable (some 2) circleInputs = .ok b ∧
      analyze .wide circleTable (some 2) circleInputs.reverse = .ok b' ∧
      ∃ number, b.tree.Alike True number b'.tree := by
  have rates : decodedRates .wide circleInputs = [0, 0, 100] := rfl
  have agree : RatesAgree (decodedRates .wide circleInputs) := by
    rw [rates]
    simp [RatesAgree]
  have separated : Separated (· ∈ circleTable.symbols) := by
    intro s t first second name _
    have first := List.mem_eraseDups.1 (List.mem_mergeSort.1 first)
    have second := List.mem_eraseDups.1 (List.mem_mergeSort.1 second)
    simp only [List.mem_cons, List.not_mem_nil, or_false] at first second
    rcases first with rfl | rfl <;> rcases second with rfl | rfl <;>
      first | rfl | exact absurd name (by decide)
  have named : ∀ input ∈ circleInputs, ∀ fault, input.recording .wide = .error fault →
      fault.inputName?.isSome := by
    intro input member fault failed
    simp only [circleInputs, List.mem_cons, List.not_mem_nil, or_false] at member
    rcases member with rfl | rfl | rfl | rfl <;> cases failed
    rfl
  obtain ⟨results, same, -⟩ := tree_same_in_any_order .wide circleTable (some 2)
    (List.reverse_perm circleInputs).symm agree separated
  obtain ⟨b, made⟩ := results (by simp) named
  obtain ⟨b', made', alike⟩ := same b made
  exact ⟨agree, separated, b, b', made, made', alike⟩

end Batch

end CallProfile
