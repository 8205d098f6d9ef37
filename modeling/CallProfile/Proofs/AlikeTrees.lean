import CallProfile.Proofs.Rearranged
import CallProfile.Proofs.TreeSums

/-! # Trees of rearranged samples

The nodes of a tree are numbered in an order that the symbols have by themselves. So the order in
which samples and arcs were listed shows in the numbers of the cycles, in the order of the cycles
and in that of the edges of a node, and nowhere else.
-/

namespace CallProfile

open scoped Whole

variable {α : Type}

/-- A role with another number for its cycle. -/
def Role.renumber (number : Nat → Nat) : Role → Role
  | .root => .root
  | .file source => .file source
  | .symbol s calls selfCalls cycle => .symbol s calls selfCalls (cycle.map number)

/-- Whether two nodes are the same but for the number of their cycle, and but for their cumulative
    times unless these are exact. -/
structure TreeNode.Alike (exact : Prop) (number : Nat → Nat) (n m : TreeNode α) : Prop where
  id : n.id = m.id
  role : m.role = n.role.renumber number
  parent : n.parent = m.parent
  children : n.children = m.children
  selfTime : n.selfTime = m.selfTime
  cumulative : exact → n.cumulative = m.cumulative
  percentage : n.percentage = m.percentage
  buckets : n.buckets = m.buckets
  sampleRate : n.sampleRate = m.sampleRate

/-- Whether two edges are the same, but for what is charged unless that is exact. -/
structure CallEdge.Alike (exact : Prop) (e f : CallEdge α) : Prop where
  node : e.node = f.node
  symbol : e.symbol = f.symbol
  count : e.count = f.count
  charged : exact → e.charged = f.charged

/-- Whether two cycles are the same in this sense. -/
structure TreeCycle.Alike (exact : Prop) (number : Nat → Nat) (c d : TreeCycle α) : Prop where
  number : d.number = number c.number
  members : c.members = d.members
  selfTime : c.selfTime = d.selfTime
  callsIn : c.callsIn = d.callsIn
  head : exact → c.head = d.head
  cumulative : exact → c.cumulative = d.cumulative

/-- Whether two trees are the same in this sense, in any order of their cycles and of the edges of
    a node. -/
structure Tree.Alike (exact : Prop) (number : Nat → Nat) (t u : Tree α) : Prop where
  nodes : List.Forall₂ (TreeNode.Alike exact number) t.nodes u.nodes
  callers : ∀ id, Matches (CallEdge.Alike exact) (t.callersOf id) (u.callersOf id)
  callees : ∀ id, Matches (CallEdge.Alike exact) (t.calleesOf id) (u.calleesOf id)
  cycles : Matches (TreeCycle.Alike exact number) t.cycles u.cycles
  /-- No two cycles get one number. -/
  numbers : (t.cycles.map fun c => number c.number).Nodup
  unattributed : t.unattributed = u.unattributed
  total : t.total = u.total
  sampleRate : t.sampleRate = u.sampleRate
  diagnostics : t.diagnostics.Perm u.diagnostics

variable {exact : Prop} {number : Nat → Nat}

namespace CallNode.Alike

variable {n m : CallNode α}

theorem callsIn (alike : n.Alike exact number m) : n.callsIn = m.callsIn :=
  (alike.callers.map _).sum_eq

theorem chargedFor [Times α] (alike : n.Alike exact number m) (isExact : exact)
    (callee : Symbol) : n.chargedFor callee = m.chargedFor callee := by
  rw [CallNode.chargedFor, CallNode.chargedFor,
    lookup_perm (alike.childTime isExact) alike.childTime_nodup]

end CallNode.Alike

namespace Tree

/-- Whether two trees are built from the same samples, listed in any order. -/
structure Samples.Reordered (p q : Samples) : Prop where
  samples : p.samples.Reordered q.samples
  buckets : p.buckets.Reordered q.buckets
  unattributed : p.unattributed = q.unattributed
  sampleRate : p.sampleRate = q.sampleRate
  diagnostics : p.diagnostics.Perm q.diagnostics

variable {p q : Samples} {nodes nodes' : List (CallNode α)} {g g' : CallGraph α}
  {groups : List Group} {s : Symbol}

/-! ## Groups -/

theorem perm_symbolsOf (reordered : p.Reordered q)
    (symbols : nodes.map (·.symbol) = nodes'.map (·.symbol)) :
    (symbolsOf p nodes).Perm (symbolsOf q nodes') := by
  refine perm_eraseDups ?_
  rw [symbols]
  exact ((reordered.samples.entries.filter _).map _).append_right _

theorem symbolInOrder_congr (counts : ∀ s, p.samples.count s = q.samples.count s) :
    symbolInOrder p = symbolInOrder q := by
  funext a b
  simp only [symbolInOrder, counts]

theorem groupsOf_perm {xs ys : List Symbol} (rearranged : xs.Perm ys)
    (counts : ∀ s, p.samples.count s = q.samples.count s) (separated : Separated (· ∈ xs)) :
    groupsOf p xs = groupsOf q ys := by
  have sources : (xs.map (·.source)).eraseDups.mergeSort sourceInOrder =
      (ys.map (·.source)).eraseDups.mergeSort sourceInOrder :=
    orderedBy_sourceInOrder.mergeSort_eq (perm_eraseDups (rearranged.map _))
      fun _ _ _ _ same => pathKey_injective same
  have members : ∀ source, (xs.filter (·.source = source)).mergeSort (symbolInOrder q) =
      (ys.filter (·.source = source)).mergeSort (symbolInOrder q) := by
    intro source
    refine (orderedBy_symbolInOrder q).mergeSort_eq (rearranged.filter _) ?_
    intro s first t second same
    simp only [EmbeddingLike.apply_eq_iff_eq, Prod.mk.injEq] at same
    exact separated s t (List.mem_of_mem_filter first) (List.mem_of_mem_filter second)
      same.2.1 same.2.2
  simp only [groupsOf, symbolInOrder_congr counts, sources, members]

theorem exists_idOf {xs : List Symbol} (inside : s ∈ xs) :
    ∃ id, idOf? (numbered 1 (groupsOf p xs)) s = some id := by
  have listed : s ∈ ((numbered 1 (groupsOf p xs)).flatMap (·.members)).map (·.2) := by
    have source : s.source ∈ (xs.map (·.source)).eraseDups.mergeSort sourceInOrder :=
      List.mem_mergeSort.2 (List.mem_eraseDups.2 (List.mem_map_of_mem inside))
    have member : s ∈ (xs.filter (·.source = s.source)).mergeSort (symbolInOrder p) :=
      List.mem_mergeSort.2 (List.mem_filter.2 ⟨inside, decide_eq_true rfl⟩)
    rw [List.map_flatMap, List.flatMap_def, symbols_numbered, groupsOf, List.map_map]
    exact List.mem_flatten.2 ⟨_, List.mem_map_of_mem source, member⟩
  obtain ⟨m, member, rfl⟩ := List.mem_map.1 listed
  have found : (((numbered 1 (groupsOf p xs)).flatMap (·.members)).find? (·.2 = m.2)).isSome :=
    List.find?_isSome.2 ⟨m, member, decide_eq_true rfl⟩
  exact ⟨_, by rw [idOf?, ← Option.some_get found]; rfl⟩

/-! ## Edges -/

theorem matches_edgesTo {charged charged' : Symbol → α} {neighbours others : List (Symbol × Nat)}
    (rearranged : neighbours.Perm others) (same : exact → charged = charged') :
    Matches (CallEdge.Alike exact) (edgesTo groups charged neighbours)
      (edgesTo groups charged' others) := by
  have sorted : (neighbours.mergeSort callsInOrder).Perm (others.mergeSort callsInOrder) :=
    (List.mergeSort_perm ..).trans (rearranged.trans (List.mergeSort_perm ..).symm)
  refine (Matches.of_perm sorted).filterMap ?_
  rintro e _ rfl
  cases idOf? groups e.1 with
  | none => exact .none
  | some node => exact .some ⟨rfl, rfl, rfl, fun isExact => congrFun (same isExact) e.1⟩

theorem matches_edgesOf (alike : List.Forall₂ (CallNode.Alike exact number) nodes nodes')
    {edges edges' : CallNode α → List (CallEdge α)}
    (same : ∀ n m, n.Alike exact number m → Matches (CallEdge.Alike exact) (edges n) (edges' m))
    (id : Int) :
    Matches (CallEdge.Alike exact)
      ((((edgesOf groups nodes edges).find? fun e => (e.1 : Int) = id).map (·.2)).getD [])
      ((((edgesOf groups nodes' edges').find? fun e => (e.1 : Int) = id).map (·.2)).getD []) := by
  have lists : List.Forall₂ (fun e f => e.1 = f.1 ∧ Matches (CallEdge.Alike exact) e.2 f.2)
      (edgesOf groups nodes edges) (edgesOf groups nodes' edges') := by
    refine List.rel_filterMap ?_ alike
    intro n m related
    dsimp only
    rw [related.symbol]
    cases idOf? groups m.symbol with
    | none => exact .none
    | some id => exact .some ⟨rfl, same n m related⟩
  have found := find?_forall₂ (p := fun e => (e.1 : Int) = id) (q := fun e => (e.1 : Int) = id)
    lists fun e f same => by rw [same.1]
  generalize (edgesOf groups nodes edges).find? _ = first at found
  generalize (edgesOf groups nodes' edges').find? _ = second at found
  cases found with
  | none => exact ⟨[], .nil, .nil⟩
  | some same => exact same.2

/-! ## Cycles -/

theorem of_cycleOf {c : Cycle α} {d : TreeCycle α} (made : cycleOf? groups c = some d) :
    d.number = c.number ∧ d.members = c.members.filterMap (idOf? groups) ∧
      idOf? groups c.head = some d.head ∧ d.cumulative = c.cumulative := by
  obtain ⟨head, place, made⟩ := Option.bind_eq_some_iff.1 made
  cases made
  exact ⟨rfl, rfl, place, rfl⟩

theorem nodup_numbers {cycles : List (Cycle α)} (distinct : (cycles.map (·.number)).Nodup)
    (groups : List Group) : ((cycles.filterMap (cycleOf? groups)).map (·.number)).Nodup := by
  rw [List.Nodup, List.pairwise_map, List.pairwise_filterMap]
  refine (List.pairwise_map.1 distinct).imp fun differ c first d second same => differ ?_
  rw [← (of_cycleOf first).1, ← (of_cycleOf second).1, same]

theorem alike_cycleOf {c d : Cycle α} (alike : c.Alike exact number d)
    (first : ∃ id, idOf? groups c.head = some id) (second : ∃ id, idOf? groups d.head = some id) :
    Option.Rel (TreeCycle.Alike exact number) (cycleOf? groups c) (cycleOf? groups d) := by
  obtain ⟨head, first⟩ := first
  obtain ⟨head', second⟩ := second
  simp only [cycleOf?, first, second]
  refine .some ⟨alike.number, ?_, alike.selfTime, alike.callsIn, fun isExact => ?_,
    alike.cumulative⟩
  · simp only [alike.members]
  · rw [alike.head isExact, second] at first
    exact (Option.some.inj first).symm

theorem matches_cycles {cycles cycles' : List (Cycle α)}
    (alike : Matches (Cycle.Alike exact number) cycles cycles')
    (heads : ∀ c ∈ cycles, ∃ id, idOf? groups c.head = some id)
    (heads' : ∀ c ∈ cycles', ∃ id, idOf? groups c.head = some id) :
    Matches (TreeCycle.Alike exact number) (cycles.filterMap (cycleOf? groups))
      (cycles'.filterMap (cycleOf? groups)) := by
  have numbered := alike.imp fun c member d member' same =>
    And.intro same (And.intro (heads c member) (heads' d member'))
  exact numbered.filterMap fun c d ⟨same, first, second⟩ => alike_cycleOf same first second

/-! ## Nodes -/

variable [Times α]

theorem alike_symbolNode (reordered : p.Reordered q)
    (alike : List.Forall₂ (CallNode.Alike exact number) nodes nodes') (total : Int)
    (file id : Nat) (s : Symbol) :
    (symbolNode p nodes total file id s).Alike exact number
      (symbolNode q nodes' total file id s) := by
  have found := find?_forall₂ (p := (·.symbol = s)) (q := (·.symbol = s)) alike fun n m same => by
    rw [same.symbol]
  have counts := reordered.samples.counts s
  have buckets := reordered.buckets.counts s
  unfold symbolNode
  generalize nodes.find? (·.symbol = s) = first at found
  generalize nodes'.find? (·.symbol = s) = second at found
  cases found with
  | none =>
      exact
        { id := rfl, role := rfl, parent := rfl, children := rfl, selfTime := counts
          cumulative := fun _ => by simp only [counts]
          percentage := by simp only [counts]
          buckets := buckets, sampleRate := reordered.sampleRate }
  | some same =>
      exact
        { id := rfl, parent := rfl, children := rfl, selfTime := counts
          role := by simp only [Role.renumber, same.callsIn, same.selfCalls, same.cycle]
          cumulative := same.cumulative
          percentage := by simp only [counts]
          buckets := buckets, sampleRate := reordered.sampleRate }

theorem alike_fileNode (reordered : p.Reordered q) (total : Int) (g : Group) :
    (fileNode p total g : TreeNode α).Alike exact number (fileNode q total g) := by
  have same : (fileNode p total g : TreeNode α) = fileNode q total g := by
    simp only [fileNode, reordered.samples.counts, reordered.buckets.counts, reordered.sampleRate]
  rw [same]
  exact ⟨rfl, rfl, rfl, rfl, rfl, fun _ => rfl, rfl, rfl, rfl⟩

theorem alike_rootNode (reordered : p.Reordered q) (total : Int) (groups : List Group) :
    (rootNode p total groups : TreeNode α).Alike exact number (rootNode q total groups) := by
  have same : (rootNode p total groups : TreeNode α) = rootNode q total groups := by
    simp only [rootNode, reordered.buckets.total, reordered.sampleRate]
  rw [same]
  exact ⟨rfl, rfl, rfl, rfl, rfl, fun _ => rfl, rfl, rfl, rfl⟩

theorem alike_nodes (reordered : p.Reordered q)
    (alike : List.Forall₂ (CallNode.Alike exact number) nodes nodes') (total : Int)
    (groups : List Group) :
    List.Forall₂ (TreeNode.Alike exact number)
      (rootNode p total groups :: groups.flatMap (groupNodes p nodes total))
      (rootNode q total groups :: groups.flatMap (groupNodes q nodes' total)) := by
  refine .cons (alike_rootNode reordered total groups) ?_
  refine List.rel_flatMap (List.forall₂_eq_eq_eq.symm ▸ rfl) ?_
  rintro g _ rfl
  refine .cons (alike_fileNode reordered total g) ?_
  rw [List.forall₂_map_left_iff, List.forall₂_map_right_iff, List.forall₂_same]
  exact fun m _ => alike_symbolNode reordered alike total g.id m.1 m.2

theorem chargedTo_eq (alike : List.Forall₂ (CallNode.Alike exact number) nodes nodes')
    (isExact : exact) (callee caller : Symbol) :
    chargedTo nodes callee caller = chargedTo nodes' callee caller := by
  have found := find?_forall₂ (p := (·.symbol = caller)) (q := (·.symbol = caller)) alike
    fun n m same => by rw [same.symbol]
  unfold chargedTo
  generalize nodes.find? (·.symbol = caller) = first at found
  generalize nodes'.find? (·.symbol = caller) = second at found
  cases found with
  | none => rfl
  | some same => exact same.chargedFor isExact callee

/-! ## The tree -/

/-- The trees of the same samples and the same call graph are the same. -/
theorem alike_assemble (reordered : p.Reordered q) (alike : g.Alike exact number g')
    (separated : Separated (· ∈ symbolsOf p g.nodes))
    (heads : ∀ c ∈ g.cycles, c.head ∈ g.nodes.map (·.symbol))
    (heads' : ∀ c ∈ g'.cycles, c.head ∈ g'.nodes.map (·.symbol))
    (numbers : (g'.cycles.map (·.number)).Nodup) :
    (assemble p (some g)).Alike exact number (assemble q (some g')) := by
  have symbols := map_eq_of_forall₂ alike.nodes fun n m same => same.symbol
  have rearranged := perm_symbolsOf reordered symbols
  have groups := groupsOf_perm rearranged reordered.samples.counts separated
  have total : ((symbolsOf p g.nodes).map p.samples.count).sum =
      ((symbolsOf q g'.nodes).map q.samples.count).sum := by
    rw [funext reordered.samples.counts]
    exact (rearranged.map _).sum_eq
  have listed : ∀ s ∈ g.nodes.map (·.symbol),
      ∃ id, idOf? (numbered 1 (groupsOf p (symbolsOf p g.nodes))) s = some id := fun s inside =>
    exists_idOf (List.mem_eraseDups.2 (List.mem_append_right _ inside))
  have cycles := matches_cycles alike.cycles (fun c member => listed _ (heads c member))
    fun d member => listed _ (symbols ▸ heads' d member)
  unfold assemble
  dsimp only [graphNodes]
  rw [← groups, ← total]
  exact
    { nodes := alike_nodes reordered alike.nodes _ _
      callers := matches_edgesOf alike.nodes fun n m same => matches_edgesTo same.callers
        fun isExact => funext fun caller => by
          rw [same.symbol, chargedTo_eq alike.nodes isExact]
      callees := matches_edgesOf alike.nodes fun n m same => matches_edgesTo same.callees
        fun isExact => funext (same.chargedFor isExact)
      cycles
      numbers := (cycles.map_perm fun c d same => same.number.symm).nodup_iff.2
        (nodup_numbers numbers _)
      unattributed := reordered.unattributed
      total := congrArg (_ + ·) reordered.unattributed
      sampleRate := reordered.sampleRate
      diagnostics := reordered.diagnostics }

end Tree

end CallProfile
