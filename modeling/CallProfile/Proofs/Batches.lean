import CallProfile.Profile.Batch
import CallProfile.Proofs.Cuts
import CallProfile.Proofs.Exact
import CallProfile.Proofs.Totals
import CallProfile.Proofs.TreeSums

/-! # Samples of a batch

A batch adds up the inputs that can be decoded and whose rate is that of the ones before them. Its
tree has every sample of their counters once.
-/

namespace CallProfile

open scoped Whole

namespace Batch

variable {layout : Layout} {table : SymbolTable} {inputs : List Input} {input : Input}

/-- The recording that an input holds. -/
def Input.recording (layout : Layout) (input : Input) : Except Fault Recording :=
  input.content.bind (decode layout)

/-- The inputs that are added up when `rate` is the rate so far, with their recordings: those that
    can be decoded and have no other rate. -/
def included (layout : Layout) : (rate : Nat) → List Input → List (Input × Recording)
  | _, [] => []
  | rate, input :: inputs =>
      match input.recording layout with
      | .error _ => included layout rate inputs
      | .ok r =>
          if r.sampleRate = 0 ∨ rate = 0 ∨ rate = r.sampleRate then
            (input, r) :: included layout (if rate = 0 then r.sampleRate else rate) inputs
          else included layout rate inputs

theorem profileOf_eq (layout : Layout) (table : SymbolTable) (input : Input) :
    profileOf layout table input =
      (input.recording layout).map (Profile.ofRecording table input.source) := by
  rw [profileOf, Input.recording]
  cases input.content with
  | error fault => rfl
  | ok bytes =>
      simp only [bind, Except.bind, Profile.ofBytes]
      cases decode layout bytes <;> rfl

theorem outcome_of_ok {r : Recording} (read : input.recording layout = .ok r) :
    outcome layout table input =
      .ok (.profile input.path (Profile.ofRecording table input.source r)) := by
  rw [outcome, profileOf_eq, read]
  rfl

theorem outcome_of_error {fault : Fault} (read : input.recording layout = .error fault) :
    outcome layout table input =
      if fault.inputName?.isSome then .ok (.failure { path := input.path, fault })
      else .error fault := by
  rw [outcome, profileOf_eq, read]
  rfl

theorem sampleRate_ofRecording (table : SymbolTable) (source : String) (r : Recording) :
    (Profile.ofRecording table source r).sampleRate = r.sampleRate := by
  rw [Recording.sampleRate, Profile.ofRecording]
  cases r.sections <;> rfl

theorem add_ofRecording (p : Profile) (failures : List Failure) (path source : String)
    (r : Recording) :
    Progress.add { merged := p, failures } (.profile path (Profile.ofRecording table source r)) =
      if r.sampleRate = 0 ∨ p.sampleRate = 0 ∨ p.sampleRate = r.sampleRate then
        { merged := p.sumAt (Profile.ofRecording table source r)
            (if p.sampleRate = 0 then r.sampleRate else p.sampleRate), failures }
      else
        { merged := p
          failures := failures ++
            [{ path, fault := .rates (toString p.sampleRate) (toString r.sampleRate) }] } := by
  rw [Progress.add]
  dsimp only
  rw [Profile.add_eq, sampleRate_ofRecording, Profile.commonRate_eq]
  by_cases agrees : r.sampleRate = 0 ∨ p.sampleRate = 0 ∨ p.sampleRate = r.sampleRate
  · rw [if_pos agrees, if_pos agrees]
    rfl
  · rw [if_neg agrees, if_neg agrees]
    rfl

/-- What a batch has added up accounts for the inputs that it includes. -/
theorem accounts_foldl {outcomes : List Outcome} (made : inputs.mapM (outcome layout table) =
      .ok outcomes) {p : Profile} {counters : List Nat} (accounts : p.Accounts counters)
    (failures : List Failure) :
    (outcomes.foldl Progress.add { merged := p, failures }).merged.Accounts
        (counters ++ (included layout p.sampleRate inputs).flatMap (·.2.counters)) ∧
      (outcomes.foldl Progress.add { merged := p, failures }).merged.sources =
        p.sources ++ (included layout p.sampleRate inputs).map (·.1.source) := by
  -- on the inputs, with the sum so far left open: the rate that counts is always its own
  induction inputs generalizing outcomes p counters failures with
  | nil =>
      cases made
      simpa [included] using accounts
  | cons input inputs ih =>
      obtain ⟨o, outcomes, first, rest, rfl⟩ := mapM_cons_eq_ok_iff.1 made
      rw [List.foldl_cons]
      cases read : input.recording layout with
      | error fault =>
          rw [outcome_of_error read] at first
          split at first
          · cases first
            simp only [included, read]
            exact ih rest accounts _
          · cases first
      | ok r =>
          rw [outcome_of_ok read] at first
          cases first
          rw [add_ofRecording]
          simp only [included, read]
          split
          · have recorded := Profile.accounts_ofRecording table input.source r
            obtain ⟨samples, sources⟩ := ih rest (accounts.sumAt recorded
              (if p.sampleRate = 0 then r.sampleRate else p.sampleRate)) failures
            constructor
            · rw [List.flatMap_cons, ← List.append_assoc]
              exact samples
            · rw [List.map_cons]
              exact sources.trans (List.append_assoc ..)
          · exact ih rest accounts _

end Batch

/-! ## The tree of a profile -/

variable {α : Type} [Times α]

/-- Whether a tree below a root has every sample of some counters once, and every counter that is
    not zero. -/
structure Tree.Conserves (t : Tree α) (root : TreeNode α) (counters : List Nat) : Prop where
  head : t.nodes.head? = some root
  role : root.role = .root
  samples : root.selfTime + t.unattributed = counters.sum
  files : root.selfTime = ((t.nodes.filter (·.isFile)).map (·.selfTime)).sum
  symbols : root.selfTime = ((t.nodes.filter (·.isSymbol)).map (·.selfTime)).sum
  fileBuckets : root.buckets = ((t.nodes.filter (·.isFile)).map (·.buckets)).sum
  buckets : root.buckets + (t.diagnostics.filter (·.kind = "bucket")).length =
    (filled counters).length

theorem Profile.tree_of_treeOf {p : Profile} {graph : CallGraph α} {t : Tree α}
    (made : p.treeOf graph = .ok t) : t = Tree.assemble p.treeSamples (some graph) :=
  Tree.of_build made

theorem Profile.Accounts.conserves {p : Profile} {counters : List Nat}
    (accounts : p.Accounts counters) (graph : Option (CallGraph α)) :
    ∃ root, (Tree.assemble p.treeSamples graph).Conserves root counters := by
  have own : ∀ e ∈ p.treeSamples.samples.entries, 0 ≤ e.2 := by
    intro e member
    obtain ⟨_, -, rfl⟩ := List.mem_map.1 member
    exact Int.natCast_nonneg _
  have sampled : ∀ s, p.treeSamples.samples.count s = 0 → p.treeSamples.buckets.count s = 0 := by
    intro s none
    have samples := (Tally.count_mapAmounts p.samples s).symm.trans none
    refine (Tally.count_mapAmounts p.buckets s).trans ?_
    rw [accounts.sampled s (by exact_mod_cast samples)]
    rfl
  have samples := (Tree.sum_symbolsOf own (fun _ => id) (Tree.graphNodes graph)).trans
    (Tally.total_mapAmounts p.samples)
  have buckets := Tree.sum_symbolsOf own sampled (Tree.graphNodes graph)
  refine ⟨_, rfl, rfl, ?_, ?_, ?_, ?_, ?_⟩
  · have total : ((p.samples.total : Int) + p.unattributed) = counters.sum := by
      exact_mod_cast accounts.samples
    rw [← total, ← samples]
    rfl
  · exact (Tree.sum_files (fun _ _ => rfl) graph).symm
  · exact (Tree.sum_symbols (fun _ _ _ _ _ => rfl) graph).symm
  · exact buckets.symm.trans (Tree.sum_files (fun _ _ => rfl) graph).symm
  · have total : ((p.buckets.total : Int) +
        (p.diagnostics.filter (·.kind = "bucket")).length) = (filled counters).length := by
      exact_mod_cast accounts.buckets
    rw [← total, ← Tally.total_mapAmounts]
    rfl

/-! ## Batches -/

namespace Batch

variable {layout : Layout} {table : SymbolTable} {inputs : List Input} {workers : Option Int}

theorem conserves_of_treeOf {p : Profile} {counters : List Nat} {graph : CallGraph α} {t : Tree α}
    (accounts : p.Accounts counters) (made : p.treeOf graph = .ok t) :
    ∃ root, t.Conserves root counters := by
  rw [Profile.tree_of_treeOf made]
  exact accounts.conserves (some graph)

theorem results_of_analyze {b : Batch α} (made : analyze layout table workers inputs = .ok b) :
    ∃ outcomes, inputs.mapM (outcome layout table) = .ok outcomes ∧
      b.merged = (collect outcomes).merged ∧ b.merged.treeOf b.graph = .ok b.tree := by
  rw [analyze] at made
  obtain ⟨_, -, made⟩ := bind_eq_ok_iff.1 made
  obtain ⟨outcomes, listed, made⟩ := bind_eq_ok_iff.1 made
  obtain ⟨graph, -, made⟩ := bind_eq_ok_iff.1 made
  obtain ⟨tree, built, made⟩ := bind_eq_ok_iff.1 made
  cases made
  exact ⟨outcomes, listed, rfl, built⟩

/-! ## Which batches have results -/

theorem callGraph_or_overflow (p : Profile) :
    (∃ g : CallGraph α, p.callGraph = .ok g) ∨
      (p.callGraph : Except Fault (CallGraph α)) = .error .overflow := by
  obtain ⟨components, -, made⟩ := CallGraph.ofArcs_eq (α := α) (Arc.ofTally p.arcs) fun s =>
    p.samples.count s
  rw [Profile.callGraph, made]
  split
  · exact .inl ⟨_, rfl⟩
  · exact .inr rfl

theorem treeOf_or_overflow (p : Profile) (graph : CallGraph α) :
    (∃ t, p.treeOf graph = .ok t) ∨ p.treeOf graph = .error .overflow := by
  rw [Profile.treeOf, Tree.build]
  split
  · exact .inl ⟨_, rfl⟩
  · exact .inr rfl

theorem exists_outcome_of_named (table : SymbolTable) {input : Input}
    (named : ∀ fault, input.recording layout = .error fault → fault.inputName?.isSome) :
    ∃ o, outcome layout table input = .ok o := by
  cases read : input.recording layout with
  | ok r => exact ⟨_, outcome_of_ok read⟩
  | error fault =>
      rw [outcome_of_error read, if_pos (named fault read)]
      exact ⟨_, rfl⟩

theorem exists_outcome (spare : 0 ≤ layout.spareWidth) (dimension : 0 ≤ layout.dimensionWidth)
    (table : SymbolTable) {input : Input}
    (readable : ∀ fault, input.content = .error fault → fault.inputName?.isSome) :
    ∃ o, outcome layout table input = .ok o := by
  refine exists_outcome_of_named table fun fault read => ?_
  rw [Input.recording] at read
  cases content : input.content with
  | error fault' =>
      rw [content] at read
      cases read
      exact readable fault content
  | ok bytes =>
      rw [content] at read
      rcases decode_fault spare dimension read with ⟨kind, -⟩ | kind
      · cases fault <;> first | rfl | exact kind.elim
      · cases fault <;> first | rfl | exact kind.elim

theorem exists_outcomes (each : ∀ input ∈ inputs, ∃ o, outcome layout table input = .ok o) :
    ∃ outcomes, inputs.mapM (outcome layout table) = .ok outcomes :=
  exists_mapM_of_forall each

theorem analyze_eq (checked : checkWorkers workers = .ok ()) {outcomes : List Outcome}
    (listed : inputs.mapM (outcome layout table) = .ok outcomes) :
    (analyze layout table workers inputs : Except Fault (Batch α)) = do
      let graph ← (collect outcomes).merged.callGraph
      let tree ← (collect outcomes).merged.treeOf graph
      return { merged := (collect outcomes).merged, graph, tree,
               failures := (collect outcomes).failures } := by
  rw [analyze, checked, listed]
  rfl

theorem analyze_or_overflow (checked : checkWorkers workers = .ok ()) {outcomes : List Outcome}
    (listed : inputs.mapM (outcome layout table) = .ok outcomes) :
    (∃ b : Batch α, analyze layout table workers inputs = .ok b) ∨
      (analyze layout table workers inputs : Except Fault (Batch α)) = .error .overflow := by
  rw [analyze_eq checked listed]
  rcases callGraph_or_overflow (α := α) (collect outcomes).merged with ⟨graph, made⟩ | failed
  · rcases treeOf_or_overflow (collect outcomes).merged graph with ⟨tree, built⟩ | failed
    · exact .inl ⟨_, bind_eq_ok_iff.2 ⟨graph, made, bind_eq_ok_iff.2 ⟨tree, built, rfl⟩⟩⟩
    · rw [made]
      exact .inr (bind_eq_error_iff.2 (.inr ⟨graph, rfl, bind_eq_error_iff.2 (.inl failed)⟩))
  · exact .inr (bind_eq_error_iff.2 (.inl failed))

theorem analyze_exact (checked : checkWorkers workers = .ok ()) {outcomes : List Outcome}
    (listed : inputs.mapM (outcome layout table) = .ok outcomes) :
    ∃ b : Batch Rat, analyze layout table workers inputs = .ok b := by
  let p := (collect outcomes).merged
  obtain ⟨_, -, made⟩ := CallGraph.ofArcs_exact (Arc.ofTally p.arcs) fun s => p.samples.count s
  rw [analyze_eq checked listed]
  exact ⟨_, bind_eq_ok_iff.2 ⟨_, made, bind_eq_ok_iff.2 ⟨_, Tree.build_exact _ _, rfl⟩⟩⟩

/-- No sample is lost, and none is counted twice. -/
theorem samples_conserved (layout : Layout) (table : SymbolTable) (workers : Option Int)
    (inputs : List Input) :
    (∀ (α : Type) [Times α] (b : Batch α), analyze layout table workers inputs = .ok b →
      b.succeeded = (included layout 0 inputs).map (·.1.source) ∧
      ∃ root, b.tree.Conserves root ((included layout 0 inputs).flatMap (·.2.counters))) ∧
    (checkWorkers workers = .ok () → 0 ≤ layout.spareWidth → 0 ≤ layout.dimensionWidth →
      (∀ input ∈ inputs, ∀ fault, input.content = .error fault → fault.inputName?.isSome) →
      (∃ b : Batch Rat, analyze layout table workers inputs = .ok b) ∧
        ∀ (α : Type) [Times α] (fault : Fault),
          (analyze layout table workers inputs : Except Fault (Batch α)) = .error fault →
            fault = .overflow) := by
  constructor
  · intro α _ b made
    obtain ⟨outcomes, listed, merged, built⟩ := results_of_analyze made
    obtain ⟨accounts, sources⟩ := accounts_foldl listed Profile.accounts_empty []
    rw [← collect, ← merged] at accounts sources
    exact ⟨sources, conserves_of_treeOf accounts built⟩
  · intro checked spare dimension readable
    obtain ⟨outcomes, listed⟩ := exists_outcomes fun input member =>
      exists_outcome spare dimension table (readable input member)
    refine ⟨analyze_exact checked listed, ?_⟩
    intro α _ fault failed
    rcases analyze_or_overflow (α := α) checked listed with ⟨b, made⟩ | overflow
    · exact absurd failed (ne_error_of_ok made)
    · exact Except.error.inj (failed.symm.trans overflow)

end Batch

end CallProfile
