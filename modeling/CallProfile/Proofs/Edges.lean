import CallProfile.Proofs.AlikeTrees
import CallProfile.Proofs.Arena

/-! # The edges of a tree

Callers and callees are listed by the numbers of nodes. As every symbol has one node, an edge can
be read off the call graph: from the number of a node to its symbol, along a neighbour, and back to
the number of that one.
-/

namespace CallProfile.Tree

open scoped Whole

variable {α : Type}

/-- Whether a symbol has the node with a number. -/
def StandsFor (t : Tree α) (id : Nat) (s : Symbol) : Prop :=
  ∃ n ∈ t.nodes, n.id = id ∧ n.symbol? = some s

variable {groups : List Group} {nodes : List (CallNode α)} {n : CallNode α} {s r : Symbol}
  {id : Nat} {e : CallEdge α}

theorem symbol?_of_cycle {m : TreeNode α} {number : Nat} (inside : m.cycle = some number) :
    ∃ s, m.symbol? = some s := by
  cases role : m.role with
  | root =>
      rw [TreeNode.cycle, role] at inside
      cases inside
  | file source =>
      rw [TreeNode.cycle, role] at inside
      cases inside
  | symbol s calls selfCalls cycle => exact ⟨s, by rw [TreeNode.symbol?, role]⟩

/-! ## Lists of edges -/

section Lists

variable {charged : Symbol → α} {neighbours : List (Symbol × Nat)}

theorem mem_edgesTo : e ∈ edgesTo groups charged neighbours ↔
    (e.symbol, e.count) ∈ neighbours ∧ idOf? groups e.symbol = some e.node ∧
      e.charged = charged e.symbol := by
  simp only [edgesTo, List.mem_filterMap, List.mem_mergeSort, Option.map_eq_some_iff]
  constructor
  · rintro ⟨⟨s, count⟩, listed, node, place, rfl⟩
    exact ⟨listed, place, rfl⟩
  · rintro ⟨listed, place, amount⟩
    refine ⟨(e.symbol, e.count), listed, e.node, place, ?_⟩
    rw [← amount]

theorem edgesTo_perm (charged : Symbol → α)
    (known : ∀ x ∈ neighbours, ∃ id, idOf? groups x.1 = some id) :
    ((edgesTo groups charged neighbours).map fun e => (e.symbol, e.count)).Perm neighbours := by
  have each : ∀ x ∈ neighbours.mergeSort callsInOrder,
      ((idOf? groups x.1).map fun node =>
        (⟨node, x.1, x.2, charged x.1⟩ : CallEdge α)).map (fun e => (e.symbol, e.count)) =
          some x := by
    intro x member
    obtain ⟨id, place⟩ := known x (List.mem_mergeSort.1 member)
    rw [place]
    rfl
  rw [edgesTo, List.map_filterMap, List.filterMap_congr each, List.filterMap_some]
  exact List.mergeSort_perm _ _

theorem nodup_edgesTo (distinct : (neighbours.map (·.1)).Nodup)
    (apart : ∀ s r id, idOf? groups s = some id → idOf? groups r = some id → s = r) :
    ((edgesTo groups charged neighbours).map (·.node)).Nodup := by
  have sorted : ((neighbours.mergeSort callsInOrder).map (·.1)).Nodup :=
    ((List.mergeSort_perm _ _).map _).nodup_iff.2 distinct
  rw [edgesTo, List.Nodup, List.pairwise_map, List.pairwise_filterMap]
  apply (List.pairwise_map.1 sorted).imp
  intro x y differ e first f second same
  obtain ⟨node, place, rfl⟩ := Option.map_eq_some_iff.1 first
  obtain ⟨other, place', rfl⟩ := Option.map_eq_some_iff.1 second
  dsimp only at same
  rw [← same] at place'
  exact differ (apart x.1 y.1 node place place')

/-- The edges that belong to a number. -/
def edgesAt (edges : List (Nat × List (CallEdge α))) (id : Nat) : List (CallEdge α) :=
  ((edges.find? fun e => (e.1 : Int) = id).map (·.2)).getD []

variable {edges : CallNode α → List (CallEdge α)}

theorem edgesAt_edgesOf (distinct : (nodes.map (·.symbol)).Nodup)
    (apart : ∀ s r id, idOf? groups s = some id → idOf? groups r = some id → s = r)
    (node : n ∈ nodes) (place : idOf? groups n.symbol = some id) :
    edgesAt (edgesOf groups nodes edges) id = edges n := by
  have found : (edgesOf groups nodes edges).find? (fun e => (e.1 : Int) = id) =
      some (id, edges n) := by
    refine find?_of_unique ?_ (decide_eq_true rfl) ?_
    · exact List.mem_filterMap.2 ⟨n, node, by rw [place]; rfl⟩
    · rintro ⟨other, listed⟩ member same
      obtain ⟨m, node', there⟩ := List.mem_filterMap.1 member
      obtain ⟨i, place', made⟩ := Option.map_eq_some_iff.1 there
      cases made
      have number : other = id := by simpa using same
      rw [number] at place'
      have symbol := apart _ _ _ place' place
      rw [List.inj_on_of_nodup_map distinct node' node symbol, number]
  rw [edgesAt, found]
  rfl

theorem edgesAt_eq_nil (none : ∀ n ∈ nodes, idOf? groups n.symbol ≠ some id) :
    edgesAt (edgesOf groups nodes edges) id = [] := by
  have found : (edgesOf groups nodes edges).find? (fun e => (e.1 : Int) = id) = Option.none := by
    rw [List.find?_eq_none]
    rintro ⟨other, listed⟩ member same
    obtain ⟨m, node, there⟩ := List.mem_filterMap.1 member
    obtain ⟨i, place, made⟩ := Option.map_eq_some_iff.1 there
    cases made
    have number : other = id := by simpa using same
    exact none m node (number ▸ place)
  rw [edgesAt, found]
  rfl

/-- A number has the edges of the node whose symbol it stands for, or none. -/
theorem edgesAt_cases (distinct : (nodes.map (·.symbol)).Nodup)
    (apart : ∀ s r id, idOf? groups s = some id → idOf? groups r = some id → s = r)
    (edges : CallNode α → List (CallEdge α)) (id : Nat) :
    (∃ n ∈ nodes, idOf? groups n.symbol = some id ∧
      edgesAt (edgesOf groups nodes edges) id = edges n) ∨
    edgesAt (edgesOf groups nodes edges) id = [] := by
  by_cases found : ∃ n ∈ nodes, idOf? groups n.symbol = some id
  · obtain ⟨n, node, place⟩ := found
    exact .inl ⟨n, node, place, edgesAt_edgesOf distinct apart node place⟩
  · push Not at found
    exact .inr (edgesAt_eq_nil found)

theorem mem_edgesAt (distinct : (nodes.map (·.symbol)).Nodup)
    (apart : ∀ s r id, idOf? groups s = some id → idOf? groups r = some id → s = r) :
    e ∈ edgesAt (edgesOf groups nodes edges) id ↔
      ∃ n ∈ nodes, idOf? groups n.symbol = some id ∧ e ∈ edges n := by
  constructor
  · intro edge
    rcases edgesAt_cases distinct apart edges id with ⟨n, node, place, same⟩ | none
    · exact ⟨n, node, place, same ▸ edge⟩
    · rw [none] at edge
      cases edge
  · rintro ⟨n, node, place, edge⟩
    rwa [edgesAt_edgesOf distinct apart node place]

theorem nodup_edgesAt (distinct : (nodes.map (·.symbol)).Nodup)
    (apart : ∀ s r id, idOf? groups s = some id → idOf? groups r = some id → s = r)
    (each : ∀ n ∈ nodes, ((edges n).map (·.node)).Nodup) (id : Nat) :
    ((edgesAt (edgesOf groups nodes edges) id).map (·.node)).Nodup := by
  rcases edgesAt_cases distinct apart edges id with ⟨n, node, -, same⟩ | none
  · rw [same]
    exact each n node
  · rw [none]
    exact .nil

end Lists

/-! ## Numbers of symbols -/

variable [Times α] {p : Samples} {total : Int} {gs : List (Option String × List Symbol)}
  {t : Tree α}

namespace LaidOut

theorem exists_place (laid : t.LaidOut p nodes total gs) :
    t.StandsFor id s ↔ (id, s) ∈ (numbered 1 gs).flatMap (·.members) := by
  rw [List.mem_flatMap]
  constructor
  · rintro ⟨n, member, rfl, shown⟩
    obtain rfl | ⟨g, group, rfl | ⟨m, inside, rfl⟩⟩ := laid.mem_nodes.1 member
    · cases shown
    · cases shown
    · obtain rfl : m.2 = s := Option.some.inj ((symbol?_symbolNode ..).symm.trans shown)
      exact ⟨g, group, inside⟩
  · rintro ⟨g, group, inside⟩
    exact ⟨_, laid.symbol_mem group inside, rfl, symbol?_symbolNode ..⟩

theorem idOf?_eq_some_iff (laid : t.LaidOut p nodes total gs) (once : (gs.flatMap (·.2)).Nodup) :
    idOf? (numbered 1 gs) s = some id ↔ t.StandsFor id s := by
  have symbols : (((numbered 1 gs).flatMap (·.members)).map (·.2)).Nodup := by
    rwa [List.map_flatMap, List.flatMap_def, symbols_numbered, ← List.flatMap_def]
  rw [laid.exists_place, idOf?, Option.map_eq_some_iff]
  constructor
  · rintro ⟨m, found, rfl⟩
    have symbol := List.find?_some found
    rw [← of_decide_eq_true symbol]
    exact List.mem_of_find?_eq_some found
  · intro member
    refine ⟨(id, s), find?_of_unique member (decide_eq_true rfl) ?_, rfl⟩
    intro m other same
    exact List.inj_on_of_nodup_map symbols other member (of_decide_eq_true same)

theorem standsFor_unique (laid : t.LaidOut p nodes total gs) (first : t.StandsFor id s)
    (second : t.StandsFor id r) : s = r := by
  obtain ⟨n, member, rfl, shown⟩ := first
  obtain ⟨m, member', same, shown'⟩ := second
  rw [laid.eq_of_id member' member same, shown] at shown'
  exact Option.some.inj shown'

end LaidOut

/-! ## The tree of a call graph -/

/-- The groups of the symbols of a tree. -/
abbrev groupsIn (p : Samples) (nodes : List (CallNode α)) : List Group :=
  numbered 1 (groupsOf p (symbolsOf p nodes))

section Assembled

variable {g : CallGraph α} {m : TreeNode α}

theorem idOf?_assemble :
    idOf? (groupsIn p g.nodes) s = some id ↔ (assemble p (some g)).StandsFor id s :=
  (laidOut_assemble p (some g)).idOf?_eq_some_iff (nodup_groupsOf p (nodup_eraseDups _))

theorem idOf?_unique (s r : Symbol) (id : Nat) (first : idOf? (groupsIn p g.nodes) s = some id)
    (second : idOf? (groupsIn p g.nodes) r = some id) : s = r :=
  (laidOut_assemble p (some g)).standsFor_unique (idOf?_assemble.1 first) (idOf?_assemble.1 second)

omit [Times α] in
theorem exists_id (p : Samples) (inside : s ∈ g.nodes.map (·.symbol)) :
    ∃ id, idOf? (groupsIn p g.nodes) s = some id :=
  exists_idOf (mem_symbolsOf_iff.2 (.inr inside))

theorem existsUnique_standsFor (p : Samples) (inside : s ∈ g.nodes.map (·.symbol)) :
    ∃! id, (assemble p (some g)).StandsFor id s := by
  obtain ⟨id, place⟩ := exists_id p inside
  refine ⟨id, idOf?_assemble.1 place, ?_⟩
  intro other there
  rw [← idOf?_assemble, place] at there
  exact (Option.some.inj there).symm

theorem calleesOf_assemble (distinct : (g.nodes.map (·.symbol)).Nodup) (node : n ∈ g.nodes)
    (place : (assemble p (some g)).StandsFor id n.symbol) :
    (assemble p (some g)).calleesOf id = edgesTo (groupsIn p g.nodes) n.chargedFor n.callees :=
  edgesAt_edgesOf distinct idOf?_unique node (idOf?_assemble.2 place)

theorem callersOf_assemble (distinct : (g.nodes.map (·.symbol)).Nodup) (node : n ∈ g.nodes)
    (place : (assemble p (some g)).StandsFor id n.symbol) :
    (assemble p (some g)).callersOf id =
      edgesTo (groupsIn p g.nodes) (chargedTo g.nodes n.symbol) n.callers :=
  edgesAt_edgesOf distinct idOf?_unique node (idOf?_assemble.2 place)

theorem edges_of_absent (absent : s ∉ g.nodes.map (·.symbol))
    (place : (assemble p (some g)).StandsFor id s) :
    (assemble p (some g)).callersOf id = [] ∧ (assemble p (some g)).calleesOf id = [] := by
  have outside : ∀ n ∈ g.nodes, idOf? (groupsIn p g.nodes) n.symbol ≠ some id := by
    intro n node there
    rw [← idOf?_unique _ _ id there (idOf?_assemble.2 place)] at absent
    exact absent (List.mem_map_of_mem node)
  exact ⟨edgesAt_eq_nil outside, edgesAt_eq_nil outside⟩

theorem chargedTo_eq_chargedFor (distinct : (nodes.map (·.symbol)).Nodup) (node : n ∈ nodes)
    (callee : Symbol) : chargedTo nodes callee n.symbol = n.chargedFor callee := by
  have found : nodes.find? (·.symbol = n.symbol) = some n :=
    find?_of_unique node (decide_eq_true rfl) fun m other same =>
      List.inj_on_of_nodup_map distinct other node (of_decide_eq_true same)
  rw [chargedTo, found]

/-- Whether a node of a tree has the calls, the cycle and the time of a node of a call graph. -/
structure HasNode (m : TreeNode α) (n : CallNode α) : Prop where
  calls : m.calls? = some n.callsIn
  selfCalls : m.selfCalls = n.selfCalls
  cycle : m.cycle = n.cycle
  cumulative : m.cumulative = n.cumulative

theorem hasNode_or_not (member : m ∈ (assemble p (some g)).nodes) (shown : m.symbol? = some s) :
    (∃ n ∈ g.nodes, n.symbol = s ∧ HasNode m n) ∨
      s ∉ g.nodes.map (·.symbol) ∧ m.calls? = some 0 ∧ m.selfCalls = 0 ∧ m.cycle = none ∧
        m.cumulative = .time (Times.ofInt m.selfTime) := by
  obtain rfl | ⟨f, -, rfl | ⟨x, -, rfl⟩⟩ := (laidOut_assemble p (some g)).mem_nodes.1 member
  · cases shown
  · cases shown
  · obtain rfl : x.2 = s := Option.some.inj ((symbol?_symbolNode ..).symm.trans shown)
    cases found : g.nodes.find? (·.symbol = x.2) with
    | some n =>
        have symbol := List.find?_some found
        refine .inl ⟨n, List.mem_of_find?_eq_some found, of_decide_eq_true symbol, ?_⟩
        constructor
        all_goals
          simp only [symbolNode, graphNodes, found, TreeNode.calls?, TreeNode.selfCalls,
            TreeNode.cycle]
    | none =>
        have absent : x.2 ∉ g.nodes.map (·.symbol) := by
          intro inside
          obtain ⟨n, node, same⟩ := List.mem_map.1 inside
          exact List.find?_eq_none.1 found n node (decide_eq_true same)
        refine .inr ⟨absent, ?_⟩
        simp only [symbolNode, graphNodes, found, TreeNode.calls?, TreeNode.selfCalls,
          TreeNode.cycle, and_self]

end Assembled

end CallProfile.Tree
