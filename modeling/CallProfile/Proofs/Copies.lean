import CallProfile.Proofs.AlikeTrees
import CallProfile.Proofs.Merging
import CallProfile.Proofs.Scaling

/-! # Copies of a profile

A profile that is added up with itself has the tree that it has alone, with everything that is
counted as many times greater. Shares stay the same, and so does everything that is decided by
comparing: which symbols are shown, in which order, what is a cycle and who is its head.
-/

namespace CallProfile

open scoped Whole

/-! ## What is multiplied -/

/-- A role with its calls multiplied. The root and the files have none. -/
def Role.scale (k : Nat) : Role → Role
  | .root => .root
  | .file source => .file source
  | .symbol s calls selfCalls cycle => .symbol s (k * calls) (k * selfCalls) cycle

def TreeNode.scale (k : Nat) (n : TreeNode Rat) : TreeNode Rat :=
  { n with
    role := n.role.scale k
    selfTime := k * n.selfTime
    cumulative := n.cumulative.scale k
    buckets := k * n.buckets }

def CallEdge.scale (k : Nat) (e : CallEdge Rat) : CallEdge Rat :=
  { e with count := k * e.count, charged := k * e.charged }

def TreeCycle.scale (k : Nat) (c : TreeCycle Rat) : TreeCycle Rat :=
  { c with
    selfTime := k * c.selfTime
    cumulative := k * c.cumulative
    callsIn := k * c.callsIn }

/-- A tree with everything that is counted multiplied, and its diagnostics repeated. -/
def Tree.repeated (k : Nat) (t : Tree Rat) : Tree Rat where
  nodes := t.nodes.map (·.scale k)
  callers := t.callers.map fun e => (e.1, e.2.map (·.scale k))
  callees := t.callees.map fun e => (e.1, e.2.map (·.scale k))
  cycles := t.cycles.map (·.scale k)
  unattributed := k * t.unattributed
  sampleRate := t.sampleRate
  diagnostics := (List.replicate k t.diagnostics).flatten

/-- What a tree is built from, with everything that is counted multiplied. -/
def Tree.Samples.repeated (k : Nat) (p : Samples) : Samples where
  samples := p.samples.scale k
  buckets := p.buckets.scale k
  unattributed := k * p.unattributed
  sampleRate := p.sampleRate
  diagnostics := (List.replicate k p.diagnostics).flatten

/-- A profile with everything that is counted multiplied, and its lists repeated. -/
def Profile.repeated (k : Nat) (p : Profile) : Profile where
  samples := p.samples.scale k
  buckets := p.buckets.scale k
  arcs := p.arcs.scale k
  unattributed := k * p.unattributed
  sampleRate := p.sampleRate
  diagnostics := (List.replicate k p.diagnostics).flatten
  sources := (List.replicate k p.sources).flatten
  blocks := k * p.blocks

variable {k : Nat}

/-! ## Sums of copies -/

theorem Tally.ofList_replicate {κ : Type} [DecidableEq κ] (pos : 0 < k) (t : Tally κ Nat) :
    ofList (List.replicate k t.entries).flatten = t.scale k := by
  induction k with
  | zero => exact absurd pos (lt_irrefl 0)
  | succ k ih =>
      rw [List.replicate_succ', List.flatten_append, List.flatten_singleton, ofList_append,
        Profile.ofList_entries]
      have keys : t.keys.eraseDups = t.keys := eraseDups_of_nodup t.nodup
      have none : t.keys.removeAll t.keys = [] := List.filter_eq_nil_iff.2 (by simp)
      rcases k.eq_zero_or_pos with rfl | more
      · refine (empty_merge t).trans (eq_of_counts (keys_scale 1 t).symm fun x => ?_)
        exact ((count_scale 1 t x).trans (one_mul _)).symm
      · rw [ih more]
        refine eq_of_counts ?_ fun x => ?_
        · rw [keys_merge, keys_scale, keys_scale, List.eraseDups_append, keys, none,
            List.eraseDups_nil, List.append_nil]
        · rw [count_merge, count_scale, count_scale, Nat.succ_mul]

namespace Profile

variable {p : Profile}

theorem firstRate_replicate (pos : 0 < k) (rate : Nat) :
    firstRate (List.replicate k rate) = rate := by
  obtain ⟨k, rfl⟩ := Nat.exists_eq_succ_of_ne_zero pos.ne'
  rw [List.replicate_succ, ← List.singleton_append, firstRate_append, firstRate_singleton]
  split
  · next none =>
      rw [none, firstRate_eq_zero_iff]
      exact fun _ member => List.eq_of_mem_replicate member
  · rfl

theorem sumOf_replicate (pos : 0 < k) (p : Profile) :
    sumOf (List.replicate k p) = p.repeated k := by
  apply ext
  · simp [sumOf, repeated, List.flatMap_def, Tally.ofList_replicate pos]
  · simp [sumOf, repeated, List.flatMap_def, Tally.ofList_replicate pos]
  · simp [sumOf, repeated, List.flatMap_def, Tally.ofList_replicate pos]
  · simp [sumOf, repeated]
  · simp [repeated, rates, firstRate_replicate pos]
  · simp [sumOf, repeated, List.flatMap_def]
  · simp [sumOf, repeated, List.flatMap_def]
  · simp [sumOf, repeated]

theorem merge_replicate (pos : 0 < k) (p : Profile) :
    merge (List.replicate k p) = .ok (p.repeated k) := by
  have agree : RatesAgree (rates (List.replicate k p)) := by
    rw [ratesAgree_iff]
    intro q first r second _ _
    rw [List.eq_of_mem_replicate first, List.eq_of_mem_replicate second]
  rw [merge_of_agree agree, sumOf_replicate pos]

end Profile

namespace Tree

variable {p : Samples} {nodes : List (CallNode Rat)} {groups : List Group}

/-! ## The order of symbols -/

theorem percentage_scale (pos : 0 < k) (n total : Int) :
    (Times.percentage (k * n) (k * total) : Rat) = Times.percentage n total := by
  have pos : (k : Int) ≠ 0 := by exact_mod_cast pos.ne'
  by_cases none : total = 0
  · simp [Times.percentage, none]
  · have whole : (k : Rat) ≠ 0 := by exact_mod_cast pos
    rw [Times.percentage, Times.percentage, if_neg none, if_neg (mul_ne_zero pos none)]
    simp only [Times.quotient]
    push_cast
    rw [mul_div_mul_left _ _ whole]

theorem symbolsOf_repeated (pos : 0 < k) (p : Samples) (nodes : List (CallNode Rat)) :
    symbolsOf (p.repeated k) (nodes.map (·.scale k)) = symbolsOf p nodes := by
  have pos : (0 : Int) < k := by exact_mod_cast pos
  have sampled : ((p.repeated k).samples.entries.filter (0 < ·.2)).map (·.1) =
      (p.samples.entries.filter (0 < ·.2)).map (·.1) := by
    rw [show (p.repeated k).samples.entries =
      p.samples.entries.map fun e => (e.1, (k : Int) * e.2) from rfl, List.filter_map,
      List.map_map]
    simp only [Function.comp_def, mul_pos_iff_of_pos_left pos]
  rw [symbolsOf, symbolsOf, sampled, List.map_map]
  rfl

theorem groupsOf_repeated (pos : 0 < k) (p : Samples) (symbols : List Symbol) :
    groupsOf (p.repeated k) symbols = groupsOf p symbols := by
  have pos : (0 : Int) < k := by exact_mod_cast pos
  have order : symbolInOrder (p.repeated k) = symbolInOrder p := by
    funext a b
    simp only [symbolInOrder, Samples.repeated, Tally.count_scale, mul_right_inj' pos.ne',
      mul_lt_mul_iff_right₀ pos]
  rw [groupsOf, groupsOf, order]

/-! ## Nodes -/

theorem sum_count_repeated (k : Nat) (p : Samples) (symbols : List Symbol) :
    (symbols.map (p.repeated k).samples.count).sum = k * (symbols.map p.samples.count).sum := by
  rw [← List.sum_map_mul_left]
  refine congrArg List.sum (List.map_congr_left fun s _ => ?_)
  exact Tally.count_scale (k : Int) p.samples s

theorem callsIn_scale (k : Nat) (n : CallNode Rat) : (n.scale k).callsIn = k * n.callsIn :=
  sum_scaleEntries k n.callers

theorem symbolNode_repeated (pos : 0 < k) (p : Samples) (nodes : List (CallNode Rat))
    (total : Int) (file id : Nat) (s : Symbol) :
    symbolNode (p.repeated k) (nodes.map (·.scale k)) (k * total) file id s =
      (symbolNode p nodes total file id s).scale k := by
  have samples : (p.repeated k).samples.count s = k * p.samples.count s :=
    Tally.count_scale (k : Int) p.samples s
  have buckets : (p.repeated k).buckets.count s = k * p.buckets.count s :=
    Tally.count_scale (k : Int) p.buckets s
  have found : (nodes.map (·.scale k)).find? (·.symbol = s) =
      (nodes.find? (·.symbol = s)).map (·.scale k) := List.find?_map
  have own : ((k * p.samples.count s : Int) : Rat) = k * p.samples.count s := by
    push_cast
    rfl
  rw [symbolNode, symbolNode, found, samples, buckets, percentage_scale pos]
  cases nodes.find? (·.symbol = s) with
  | none => simp [TreeNode.scale, Role.scale, Amount.scale, Times.ofInt, own, Samples.repeated]
  | some n =>
      simp only [Option.map_some, callsIn_scale]
      rfl

theorem fileNode_repeated (pos : 0 < k) (p : Samples) (total : Int) (g : Group) :
    (fileNode (p.repeated k) (k * total) g : TreeNode Rat) = (fileNode p total g).scale k := by
  have samples : (g.members.map fun m => (p.repeated k).samples.count m.2).sum =
      k * (g.members.map fun m => p.samples.count m.2).sum := by
    rw [← List.sum_map_mul_left]
    exact congrArg List.sum (List.map_congr_left fun m _ => Tally.count_scale (k : Int) _ m.2)
  have buckets : (g.members.map fun m => (p.repeated k).buckets.count m.2).sum =
      k * (g.members.map fun m => p.buckets.count m.2).sum := by
    rw [← List.sum_map_mul_left]
    exact congrArg List.sum (List.map_congr_left fun m _ => Tally.count_scale (k : Int) _ m.2)
  rw [fileNode, fileNode, samples, buckets, percentage_scale pos]
  simp [TreeNode.scale, Role.scale, Amount.scale, Times.ofInt, Samples.repeated]

theorem rootNode_repeated (pos : 0 < k) (p : Samples) (total : Int) (groups : List Group) :
    (rootNode (p.repeated k) (k * total) groups : TreeNode Rat) =
      (rootNode p total groups).scale k := by
  have buckets : (p.repeated k).buckets.total = k * p.buckets.total :=
    Tally.total_scale (k : Int) p.buckets
  rw [rootNode, rootNode, buckets, percentage_scale pos]
  simp [TreeNode.scale, Role.scale, Amount.scale, Times.ofInt, Samples.repeated]

theorem groupNodes_repeated (pos : 0 < k) (p : Samples) (nodes : List (CallNode Rat))
    (total : Int) (groups : List Group) :
    groups.flatMap (groupNodes (p.repeated k) (nodes.map (·.scale k)) (k * total)) =
      (groups.flatMap (groupNodes p nodes total)).map (·.scale k) := by
  rw [List.map_flatMap]
  refine List.flatMap_congr fun g _ => ?_
  rw [groupNodes, groupNodes, fileNode_repeated pos, List.map_cons, List.map_map]
  refine congrArg (List.cons _) (List.map_congr_left fun m _ => ?_)
  exact symbolNode_repeated pos p nodes total g.id m.1 m.2

/-! ## Edges -/

theorem chargedFor_scale (k : Nat) (n : CallNode Rat) (callee : Symbol) :
    (n.scale k).chargedFor callee = k * n.chargedFor callee := by
  rw [CallNode.chargedFor, CallNode.chargedFor,
    show (n.scale k).childTime = scaleEntries (k : Rat) n.childTime from rfl,
    lookup_scaleEntries]
  cases n.childTime.lookup callee with
  | none => exact (mul_zero (k : Rat)).symm
  | some x => rfl

theorem chargedTo_scale (k : Nat) (nodes : List (CallNode Rat)) (callee caller : Symbol) :
    chargedTo (nodes.map (·.scale k)) callee caller = k * chargedTo nodes callee caller := by
  have found : (nodes.map (·.scale k)).find? (·.symbol = caller) =
      (nodes.find? (·.symbol = caller)).map (·.scale k) := List.find?_map
  rw [chargedTo, found, chargedTo]
  cases nodes.find? (·.symbol = caller) with
  | none => exact (mul_zero (k : Rat)).symm
  | some n => exact chargedFor_scale k n callee

theorem edgesTo_scale (pos : 0 < k) (groups : List Group) (charged : Symbol → Rat)
    (neighbours : List (Symbol × Nat)) :
    edgesTo groups (fun s => k * charged s) (scaleEntries k neighbours) =
      (edgesTo groups charged neighbours).map (·.scale k) := by
  have order : ∀ a b : Symbol × Nat,
      callsInOrder (a.1, k * a.2) (b.1, k * b.2) = callsInOrder a b := by
    intro a b
    simp only [callsInOrder, Nat.mul_right_inj pos.ne', Nat.mul_lt_mul_left pos]
  have sorted : (scaleEntries k neighbours).mergeSort callsInOrder =
      scaleEntries k (neighbours.mergeSort callsInOrder) :=
    (List.map_mergeSort fun a _ b _ => (order a b).symm).symm
  rw [edgesTo, edgesTo, sorted, scaleEntries, List.filterMap_map, List.map_filterMap]
  refine List.filterMap_congr fun e _ => ?_
  simp only [Function.comp]
  cases idOf? groups e.1 <;> rfl

theorem edgesOf_scale (groups : List Group) (nodes : List (CallNode Rat))
    (edges edges' : CallNode Rat → List (CallEdge Rat))
    (same : ∀ n, edges' (n.scale k) = (edges n).map (·.scale k)) :
    edgesOf groups (nodes.map (·.scale k)) edges' =
      (edgesOf groups nodes edges).map fun e => (e.1, e.2.map (·.scale k)) := by
  rw [edgesOf, edgesOf, List.filterMap_map, List.map_filterMap]
  refine List.filterMap_congr fun n _ => ?_
  simp only [Function.comp, same, show (n.scale k).symbol = n.symbol from rfl]
  cases idOf? groups n.symbol <;> rfl

theorem cycleOf?_scale (k : Nat) (groups : List Group) (c : Cycle Rat) :
    cycleOf? groups (c.scale k) = (cycleOf? groups c).map (·.scale k) := by
  rw [cycleOf?, cycleOf?, show (c.scale k).head = c.head from rfl]
  cases idOf? groups c.head <;> rfl

/-! ## The tree -/

theorem assemble_repeated (pos : 0 < k) (p : Samples) (g : CallGraph Rat) :
    assemble (p.repeated k) (some (g.scale k)) = (assemble p (some g)).repeated k := by
  have symbols : symbolsOf (p.repeated k) (g.scale k).nodes = symbolsOf p g.nodes :=
    symbolsOf_repeated pos p g.nodes
  have groups := groupsOf_repeated pos p (symbolsOf p g.nodes)
  have total := sum_count_repeated k p (symbolsOf p g.nodes)
  unfold assemble
  dsimp only [graphNodes]
  rw [symbols, groups, total, rootNode_repeated pos]
  generalize numbered 1 (groupsOf p (symbolsOf p g.nodes)) = groups
  generalize ((symbolsOf p g.nodes).map p.samples.count).sum = total
  have callers := edgesOf_scale (k := k) groups g.nodes
    (fun n => edgesTo groups (chargedTo g.nodes n.symbol) n.callers)
    (fun n => edgesTo groups (chargedTo (g.scale k).nodes n.symbol) n.callers) fun n =>
      (congrArg (edgesTo groups · _) (funext (chargedTo_scale k g.nodes n.symbol))).trans
        (edgesTo_scale pos groups _ n.callers)
  have callees := edgesOf_scale (k := k) groups g.nodes
    (fun n => edgesTo groups n.chargedFor n.callees)
    (fun n => edgesTo groups n.chargedFor n.callees) fun n =>
      (congrArg (edgesTo groups · _) (funext (chargedFor_scale k n))).trans
        (edgesTo_scale pos groups _ n.callees)
  have cycles : (g.cycles.map (·.scale k)).filterMap (cycleOf? groups) =
      (g.cycles.filterMap (cycleOf? groups)).map (·.scale k) := by
    rw [List.filterMap_map, List.map_filterMap]
    exact List.filterMap_congr fun c _ => cycleOf?_scale k groups c
  simp only [repeated, Tree.mk.injEq, List.map_cons]
  exact ⟨congrArg (List.cons _) (groupNodes_repeated pos p g.nodes total groups), callers, callees,
    cycles, rfl, rfl, rfl⟩

end Tree

namespace Profile

theorem treeSamples_repeated (k : Nat) (p : Profile) :
    (p.repeated k).treeSamples = p.treeSamples.repeated k := by
  have same : ∀ t : Tally Symbol Nat,
      (t.scale k).mapAmounts Int.ofNat = (t.mapAmounts Int.ofNat).scale (k : Int) := by
    intro t
    refine Tally.eq_of_counts ?_ fun s => ?_
    · simp [Tally.scale, Tally.mapAmounts, Tally.keys, Function.comp_def]
    · rw [Tally.count_mapAmounts, Tally.count_scale, Tally.count_scale, Tally.count_mapAmounts]
      exact Int.natCast_mul ..
  rw [treeSamples, treeSamples, Tree.Samples.repeated]
  simp only [repeated, same]
  rfl

theorem callGraph_repeated (pos : 0 < k) (p : Profile) :
    (p.repeated k).callGraph = (p.callGraph : Except Fault (CallGraph Rat)).map (·.scale k) := by
  have merged : ∀ arcs : ArcTally, Arc.merge (Arc.ofTally arcs) = arcs := by
    intro arcs
    rw [Arc.merge, Arc.ofTally, List.map_map]
    exact (congrArg Tally.ofList (List.map_id _)).trans (ofList_entries arcs)
  have times : (fun s => ((p.repeated k).samples.count s : Int)) =
      fun s => k * (p.samples.count s : Int) := by
    funext s
    rw [show (p.repeated k).samples.count s = k * p.samples.count s from Tally.count_scale ..]
    exact Int.natCast_mul ..
  rw [callGraph, callGraph, CallGraph.ofArcs, CallGraph.ofArcs, merged, merged, times]
  exact CallGraph.ofTally_scale pos p.arcs _

/-- Copies of a profile, added up, have the tree of the profile with everything that is counted
    as many times greater, and nothing else changed. -/
theorem tree_of_copies (p : Profile) {k : Nat} (pos : 0 < k) :
    ∃ (sum : Profile) (t : Tree Rat), merge (List.replicate k p) = .ok sum ∧ p.tree = .ok t ∧
      sum.tree = .ok (t.repeated k) := by
  obtain ⟨_, -, made⟩ := CallGraph.ofArcs_exact (Arc.ofTally p.arcs) fun s => p.samples.count s
  have graph : p.callGraph = .ok _ := made
  have graph' := callGraph_repeated pos p
  rw [graph] at graph'
  refine ⟨p.repeated k, _, merge_replicate pos p, bind_eq_ok_iff.2 ⟨_, graph, Tree.build_exact _ _⟩,
    bind_eq_ok_iff.2 ⟨_, graph', ?_⟩⟩
  rw [treeOf, Tree.build_exact, treeSamples_repeated, Tree.assemble_repeated pos]

/-- A profile with a circle of calls that is entered from outside, an address without a symbol and
    a symbol that is never called. -/
def circleProfile : Profile :=
  let main : Symbol := ⟨"main", 256, 272, some "main.c", by decide⟩
  let ping : Symbol := ⟨"ping", 272, 288, some "game.c", by decide⟩
  let pong : Symbol := ⟨"pong", 288, 304, some "game.c", by decide⟩
  let idle : Symbol := ⟨"idle", 304, 320, none, by decide⟩
  { samples := .ofList [(main, 1), (pong, 6), (idle, 2)]
    buckets := .ofList [(main, 1), (pong, 3), (idle, 1)]
    arcs := .ofList [((main, ping), 4), ((ping, pong), 10), ((pong, ping), 2), ((pong, pong), 1)]
    unattributed := 3
    sampleRate := 100
    diagnostics := [{ address := 4, kind := "bucket", count := 3, detail := some "bucket 0" }]
    sources := ["run.out"]
    blocks := 5 }

theorem tree_of_copies_circle :
    0 < 3 ∧ ∃ (sum : Profile) (t : Tree Rat),
      merge (List.replicate 3 circleProfile) = .ok sum ∧ circleProfile.tree = .ok t ∧
        sum.tree = .ok (t.repeated 3) :=
  ⟨by decide, tree_of_copies circleProfile (by decide)⟩

end Profile

end CallProfile
