import CallProfile.Proofs.Edges
import CallProfile.Proofs.Propagation

/-! # Callers and callees

A tree tells of every call from one symbol to another one twice, among the callees of the caller
and among the callers of the callee, and of every cycle by its members and at each of them. Both
ways it says the same, and what a symbol is charged for its callees makes up its time.
-/

namespace CallProfile

open scoped Whole

theorem CallNode.chargedFor_of_absent {α : Type} [Times α] {n : CallNode α} {s : Symbol}
    (absent : s ∉ n.childTime.map (·.1)) : n.chargedFor s = Times.ofInt 0 := by
  have none : n.childTime.lookup s = none := by
    rw [List.lookup_eq_none_iff]
    intro e listed
    rw [bne_iff_ne]
    rintro rfl
    exact absent (List.mem_map_of_mem listed)
  rw [chargedFor, none]
  rfl

namespace CallGraph

open Arc

variable {α : Type} [Times α] {arcs : List Arc} {times : Symbol → Int} {g : CallGraph α}
  {components : List (Component α)} {n : CallNode α} {s : Symbol}

omit [Times α] in
theorem HasCycles.componentOf_eq (cycles : HasCycles arcs times g) {c : Cycle α}
    (member : c ∈ g.cycles) (inside : s ∈ c.members) :
    componentOf arcs s = c.members.toFinset := by
  have circle := (cycles.isCircle member).1 s (List.mem_toFinset.2 inside)
  ext t
  rw [mem_componentOf, ← circle t, and_iff_right_iff_imp, List.mem_toFinset]
  exact cycles.member_mem_symbols member

/-- What the nodes of a call graph tell of the calls of arcs. -/
structure HasCalls (arcs : List Arc) (g : CallGraph α) : Prop where
  symbols_nodup : (g.nodes.map (·.symbol)).Nodup
  mem_symbols : ∀ s, s ∈ g.nodes.map (·.symbol) ↔ s ∈ symbols arcs
  callers : ∀ n ∈ g.nodes, n.callers = callersOf (merge arcs) n.symbol
  callees : ∀ n ∈ g.nodes, n.callees = calleesOf (merge arcs) n.symbol
  selfCalls : ∀ n ∈ g.nodes, n.selfCalls = calls arcs n.symbol n.symbol
  childTime_nodup : ∀ n ∈ g.nodes, (n.childTime.map (·.1)).Nodup
  childTime : ∀ n ∈ g.nodes, ∀ e ∈ n.childTime,
    Joins arcs n.symbol e.1 ∧ ¬ Together arcs n.symbol e.1

theorem IsCharged.hasCalls (charged : IsCharged arcs times components) :
    HasCalls arcs (ofComponents (merge arcs) times components) := by
  refine
    { symbols_nodup := charged.hasCycles.symbols_nodup
      mem_symbols := charged.hasCycles.mem_symbols
      callers := fun n member => ?_
      callees := fun n member => ?_
      selfCalls := fun n member => ?_
      childTime_nodup := fun n member => ?_
      childTime := fun n member e listed => ?_ }
  all_goals obtain ⟨s, -, rfl⟩ := mem_nodes_ofComponents.1 member
  · simp only [callers_enterCycle, symbol_enterCycle, nodeOf]
  · simp only [callees_enterCycle, symbol_enterCycle, nodeOf]
  · simp only [selfCalls_enterCycle, symbol_enterCycle, nodeOf, selfCallsOf_merge]
  · rw [childTime_enterCycle]
    exact nodup_charges (merge arcs) (outside components s) s
  · rw [childTime_enterCycle] at listed
    rw [symbol_enterCycle]
    obtain ⟨joins, apart, -⟩ := charged.mem_charges.1 listed
    exact ⟨joins, apart⟩

namespace HasCalls

omit [Times α] in
theorem exists_node (shown : HasCalls arcs g) (inside : s ∈ symbols arcs) :
    ∃ n ∈ g.nodes, n.symbol = s :=
  List.mem_map.1 ((shown.mem_symbols s).2 inside)

theorem chargedFor_of_together (shown : HasCalls arcs g) (node : n ∈ g.nodes)
    (together : Together arcs n.symbol s) : n.chargedFor s = Times.ofInt 0 := by
  apply CallNode.chargedFor_of_absent
  intro charged
  obtain ⟨e, listed, rfl⟩ := List.mem_map.1 charged
  exact (shown.childTime n node e listed).2 together

/-- What is charged for the callees is all that is charged. -/
theorem sum_chargedFor {g : CallGraph Rat} {n : CallNode Rat} (shown : HasCalls arcs g)
    (node : n ∈ g.nodes) :
    (n.callees.map fun e => n.chargedFor e.1).sum = (n.childTime.map (·.2)).sum := by
  have callees : (n.callees.map (·.1)).Nodup := by
    rw [shown.callees n node]
    exact nodup_calleesOf (merge arcs) n.symbol
  have total : Tally.amountOf n.childTime (fun _ => true) =
      ∑ v ∈ (n.callees.map (·.1)).toFinset, n.chargedFor v := by
    refine Tally.amountOf_eq_sum (shown.childTime_nodup n node) ?_ ?_ ?_
    · intro e listed
      rw [CallNode.chargedFor, lookup_of_mem (shown.childTime_nodup n node) listed]
      rfl
    · intro e listed _
      obtain ⟨joins, apart⟩ := shown.childTime n node e listed
      have callee : (e.1, calls arcs n.symbol e.1) ∈ n.callees := by
        rw [shown.callees n node, mem_calleesOf]
        refine ⟨joins, ?_, rfl⟩
        intro same
        dsimp only at same
        exact apart (same ▸ .refl arcs n.symbol)
      exact List.mem_toFinset.2 (List.mem_map_of_mem callee)
    · -- callees of the same component add nothing
      intro v _
      by_cases charged : v ∈ n.childTime.map (·.1)
      · exact .inl ⟨rfl, charged⟩
      · exact .inr (CallNode.chargedFor_of_absent charged)
  rw [Tally.amountOf, List.filter_true, List.sum_toFinset _ callees, List.map_map] at total
  exact total.symm

end HasCalls

end CallGraph

namespace Tree

open Arc CallGraph

variable {α : Type} [Times α] {arcs : List Arc} {times : Symbol → Int} {p : Samples}
  {g : CallGraph α} {components : List (Component α)} {id : Nat} {s u v : Symbol}

/-- Whether a tree shows the calls of arcs, as many at the caller as at the callee. -/
structure ShowsCalls (t : Tree α) (arcs : List Arc) : Prop where
  known : ∀ s ∈ Arc.symbols arcs, ∃! id, t.StandsFor id s
  /-- An edge leads to the node of its symbol, and no two edges of a node lead to one node. -/
  ends : ∀ id : Nat, ∀ e, e ∈ t.callersOf id ∨ e ∈ t.calleesOf id → t.StandsFor e.node e.symbol
  callers_nodup : ∀ id : Nat, ((t.callersOf id).map (·.node)).Nodup
  callees_nodup : ∀ id : Nat, ((t.calleesOf id).map (·.node)).Nodup
  mirror : ∀ (caller callee count : Nat) (charged : α),
    (∃ e ∈ t.callersOf callee, e.node = caller ∧ e.count = count ∧ e.charged = charged) ↔
      ∃ e ∈ t.calleesOf caller, e.node = callee ∧ e.count = count ∧ e.charged = charged
  /-- There is an edge from every symbol to every other one that arcs join it to. -/
  joined : ∀ caller callee u v, t.StandsFor caller u → t.StandsFor callee v → ∀ count,
    (∃ e ∈ t.calleesOf caller, e.node = callee ∧ e.count = count) ↔
      Joins arcs u v ∧ u ≠ v ∧ count = calls arcs u v
  counted : ∀ n ∈ t.nodes, ∀ s, n.symbol? = some s →
    n.calls? = some ((t.callersOf n.id).map (·.count)).sum ∧ n.selfCalls = calls arcs s s

/-- Whether the cycles of a tree are those that its nodes tell of. -/
structure ShowsCycles (t : Tree α) : Prop where
  numbers : (t.cycles.map (·.number)).Nodup
  members_nodup : ∀ c ∈ t.cycles, c.members.Nodup
  head_mem : ∀ c ∈ t.cycles, c.head ∈ c.members
  members : ∀ c ∈ t.cycles, ∀ id,
    id ∈ c.members ↔ ∃ n ∈ t.nodes, n.id = id ∧ n.cycle = some c.number
  shown : ∀ n ∈ t.nodes, ∀ number, n.cycle = some number → ∃ c ∈ t.cycles, c.number = number
  /-- Members of one cycle charge each other nothing. -/
  within : ∀ n ∈ t.nodes, ∀ m ∈ t.nodes, ∀ number,
    n.cycle = some number → m.cycle = some number →
      ∀ e, e ∈ t.callersOf n.id ∨ e ∈ t.calleesOf n.id → e.node = m.id →
        e.charged = Times.ofInt 0

/-- What a node has of its own and is charged for its callees. -/
def ownAndCharged (t : Tree Rat) (n : TreeNode Rat) : Rat :=
  n.selfTime + ((t.calleesOf n.id).map (·.charged)).sum

/-- Whether cumulative times are made up of samples and of what is charged for callees. -/
structure Balances (t : Tree Rat) : Prop where
  own : ∀ n ∈ t.nodes, ∀ s, n.symbol? = some s → (∀ c ∈ t.cycles, c.head ≠ n.id) →
    n.cumulative.toTime = t.ownAndCharged n
  whole : ∀ c ∈ t.cycles, c.cumulative = ((t.nodesAt c.members).map t.ownAndCharged).sum

/-! ## Edges -/

/-- Whether one symbol calls another one so often and is charged so much for it. -/
def IsCall (arcs : List Arc) (nodes : List (CallNode α)) (u v : Symbol) (count : Nat)
    (charged : α) : Prop :=
  Joins arcs u v ∧ u ≠ v ∧ count = calls arcs u v ∧ charged = chargedTo nodes v u

variable {e : CallEdge α}

theorem mem_calleesOf_iff (shown : HasCalls arcs g) :
    e ∈ (assemble p (some g)).calleesOf id ↔
      ∃ u, (assemble p (some g)).StandsFor id u ∧
        (assemble p (some g)).StandsFor e.node e.symbol ∧
        IsCall arcs g.nodes u e.symbol e.count e.charged := by
  apply (mem_edgesAt shown.symbols_nodup idOf?_unique).trans
  constructor
  · rintro ⟨n, node, place, edge⟩
    obtain ⟨listed, there, amount⟩ := mem_edgesTo.1 edge
    rw [shown.callees n node, mem_calleesOf] at listed
    rw [← chargedTo_eq_chargedFor shown.symbols_nodup node] at amount
    obtain ⟨joins, differ, count⟩ := listed
    exact ⟨n.symbol, idOf?_assemble.1 place, idOf?_assemble.1 there, joins, differ.symm, count,
      amount⟩
  · rintro ⟨u, place, there, joins, differ, count, amount⟩
    obtain ⟨n, node, rfl⟩ := shown.exists_node joins.mem_symbols.1
    rw [chargedTo_eq_chargedFor shown.symbols_nodup node] at amount
    refine ⟨n, node, idOf?_assemble.2 place,
      mem_edgesTo.2 ⟨?_, idOf?_assemble.2 there, amount⟩⟩
    rw [shown.callees n node, mem_calleesOf]
    exact ⟨joins, differ.symm, count⟩

theorem mem_callersOf_iff (shown : HasCalls arcs g) :
    e ∈ (assemble p (some g)).callersOf id ↔
      ∃ v, (assemble p (some g)).StandsFor id v ∧
        (assemble p (some g)).StandsFor e.node e.symbol ∧
        IsCall arcs g.nodes e.symbol v e.count e.charged := by
  apply (mem_edgesAt shown.symbols_nodup idOf?_unique).trans
  constructor
  · rintro ⟨n, node, place, edge⟩
    obtain ⟨listed, there, amount⟩ := mem_edgesTo.1 edge
    rw [shown.callers n node, mem_callersOf] at listed
    obtain ⟨joins, differ, count⟩ := listed
    exact ⟨n.symbol, idOf?_assemble.1 place, idOf?_assemble.1 there, joins, differ, count, amount⟩
  · rintro ⟨v, place, there, joins, differ, count, amount⟩
    obtain ⟨n, node, rfl⟩ := shown.exists_node joins.mem_symbols.2
    refine ⟨n, node, idOf?_assemble.2 place,
      mem_edgesTo.2 ⟨?_, idOf?_assemble.2 there, amount⟩⟩
    rw [shown.callers n node, mem_callersOf]
    exact ⟨joins, differ, count⟩

theorem IsCall.charged_eq_zero (shown : HasCalls arcs g) {count : Nat} {charged : α}
    (call : IsCall arcs g.nodes u v count charged) (together : Together arcs u v) :
    charged = Times.ofInt 0 := by
  obtain ⟨joins, -, -, amount⟩ := call
  obtain ⟨n, node, rfl⟩ := shown.exists_node joins.mem_symbols.1
  rw [amount, chargedTo_eq_chargedFor shown.symbols_nodup node]
  exact shown.chargedFor_of_together node together

theorem calls_assemble (shown : HasCalls arcs g) {n : TreeNode α}
    (member : n ∈ (assemble p (some g)).nodes) (symbol : n.symbol? = some s) :
    n.calls? = some (((assemble p (some g)).callersOf n.id).map (·.count)).sum ∧
      n.selfCalls = calls arcs s s := by
  have place : (assemble p (some g)).StandsFor n.id s := ⟨n, member, rfl, symbol⟩
  rcases hasNode_or_not member symbol with ⟨m, node, rfl, same⟩ | ⟨absent, none, noSelf, -, -⟩
  · have known : ∀ x ∈ m.callers, ∃ id, idOf? (groupsIn p g.nodes) x.1 = some id := by
      intro x listed
      rw [shown.callers m node, mem_callersOf] at listed
      exact exists_id p ((shown.mem_symbols x.1).2 listed.1.mem_symbols.1)
    have counts := ((edgesTo_perm (chargedTo g.nodes m.symbol) known).map (·.2)).sum_eq
    rw [List.map_map] at counts
    rw [same.calls, same.selfCalls, shown.selfCalls m node,
      callersOf_assemble shown.symbols_nodup node place]
    exact ⟨congrArg some counts.symm, rfl⟩
  · have apart : ¬ Joins arcs s s := by
      intro joins
      exact absent ((shown.mem_symbols s).2 joins.mem_symbols.1)
    rw [none, noSelf, (edges_of_absent absent place).1, calls_eq_zero apart]
    exact ⟨rfl, rfl⟩

theorem showsCalls_assemble (shown : HasCalls arcs g) (p : Samples) :
    (assemble p (some g)).ShowsCalls arcs where
  known s inside := existsUnique_standsFor p ((shown.mem_symbols s).2 inside)
  ends id e edge := by
    rcases edge with edge | edge
    · obtain ⟨v, -, there, -⟩ := (mem_callersOf_iff shown).1 edge
      exact there
    · obtain ⟨u, -, there, -⟩ := (mem_calleesOf_iff shown).1 edge
      exact there
  callers_nodup id := nodup_edgesAt shown.symbols_nodup idOf?_unique (fun n node => by
    rw [shown.callers n node]
    exact nodup_edgesTo (nodup_callersOf (merge arcs) n.symbol) idOf?_unique) id
  callees_nodup id := nodup_edgesAt shown.symbols_nodup idOf?_unique (fun n node => by
    rw [shown.callees n node]
    exact nodup_edgesTo (nodup_calleesOf (merge arcs) n.symbol) idOf?_unique) id
  mirror caller callee count charged := by
    constructor
    · -- the edge back has the ends exchanged
      rintro ⟨e, edge, rfl, rfl, rfl⟩
      obtain ⟨v, place, there, call⟩ := (mem_callersOf_iff shown).1 edge
      exact ⟨⟨callee, v, e.count, e.charged⟩,
        (mem_calleesOf_iff shown).2 ⟨e.symbol, there, place, call⟩, rfl, rfl, rfl⟩
    · rintro ⟨e, edge, rfl, rfl, rfl⟩
      obtain ⟨u, place, there, call⟩ := (mem_calleesOf_iff shown).1 edge
      exact ⟨⟨caller, u, e.count, e.charged⟩,
        (mem_callersOf_iff shown).2 ⟨e.symbol, there, place, call⟩, rfl, rfl, rfl⟩
  joined caller callee u v first second count := by
    have laid := laidOut_assemble p (some g)
    constructor
    · rintro ⟨e, edge, rfl, rfl⟩
      obtain ⟨w, place, there, joins, differ, counted, -⟩ := (mem_calleesOf_iff shown).1 edge
      cases laid.standsFor_unique place first
      cases laid.standsFor_unique there second
      exact ⟨joins, differ, counted⟩
    · rintro ⟨joins, differ, rfl⟩
      exact ⟨⟨callee, v, calls arcs u v, chargedTo g.nodes v u⟩,
        (mem_calleesOf_iff shown).2 ⟨u, first, second, joins, differ, rfl, rfl⟩, rfl, rfl⟩
  counted n member s symbol := calls_assemble shown member symbol

/-! ## Cycles -/

theorem cycle_assemble (cycles : HasCycles arcs times g) {n : TreeNode α}
    (member : n ∈ (assemble p (some g)).nodes) {number : Nat} :
    n.cycle = some number ↔
      ∃ c ∈ g.cycles, c.number = number ∧ ∃ s ∈ c.members, n.symbol? = some s := by
  constructor
  · intro told
    obtain ⟨s, symbol⟩ := symbol?_of_cycle told
    rcases hasNode_or_not member symbol with ⟨m, node, rfl, same⟩ | ⟨-, -, -, none, -⟩
    · rw [same.cycle, cycles.cycle_iff m node] at told
      obtain ⟨c, listed, same, inside⟩ := told
      exact ⟨c, listed, same, m.symbol, inside, symbol⟩
    · rw [none] at told
      cases told
  · rintro ⟨c, listed, same, s, inside, symbol⟩
    rcases hasNode_or_not member symbol with ⟨m, node, rfl, shows⟩ | ⟨absent, -⟩
    · rw [shows.cycle, cycles.cycle_iff m node]
      exact ⟨c, listed, same, inside⟩
    · exact absurd ((cycles.mem_symbols s).2 (cycles.member_mem_symbols listed inside)) absent

theorem exists_cycle {d : TreeCycle α} (member : d ∈ (assemble p (some g)).cycles) :
    ∃ c ∈ g.cycles,
      cycleOf? (groupsIn p g.nodes) c = some d :=
  List.mem_filterMap.1 member

theorem exists_view (cycles : HasCycles arcs times g) (p : Samples) {c : Cycle α}
    (member : c ∈ g.cycles) :
    ∃ d ∈ (assemble p (some g)).cycles,
      cycleOf? (groupsIn p g.nodes) c = some d := by
  have inside := cycles.member_mem_symbols member (cycles.head_mem c member)
  obtain ⟨head, place⟩ := exists_id p ((cycles.mem_symbols c.head).2 inside)
  have made : ∃ d, cycleOf? (groupsIn p g.nodes) c = some d := by
    rw [cycleOf?, place]
    exact ⟨_, rfl⟩
  obtain ⟨d, made⟩ := made
  exact ⟨d, List.mem_filterMap.2 ⟨c, member, made⟩, made⟩

theorem mem_members_iff {c : Cycle α} {d : TreeCycle α}
    (made : cycleOf? (groupsIn p g.nodes) c = some d) :
    id ∈ d.members ↔ ∃ s ∈ c.members, (assemble p (some g)).StandsFor id s := by
  obtain ⟨-, members, -, -⟩ := of_cycleOf made
  simp only [members, List.mem_filterMap, idOf?_assemble]

theorem showsCycles_assemble (shown : HasCalls arcs g) (cycles : HasCycles arcs times g)
    (p : Samples) : (assemble p (some g)).ShowsCycles where
  numbers := nodup_numbers cycles.numbers_nodup _
  members_nodup d member := by
    obtain ⟨c, listed, made⟩ := exists_cycle member
    obtain ⟨-, members, -, -⟩ := of_cycleOf made
    rw [members]
    apply ((List.nodup_flatMap.1 cycles.members_nodup).1 c listed).filterMap
    intro s r id first second
    exact idOf?_unique s r id first second
  head_mem d member := by
    obtain ⟨c, listed, made⟩ := exists_cycle member
    obtain ⟨-, -, place, -⟩ := of_cycleOf made
    exact (mem_members_iff made).2 ⟨c.head, cycles.head_mem c listed, idOf?_assemble.1 place⟩
  members d member id := by
    obtain ⟨c, listed, made⟩ := exists_cycle member
    obtain ⟨number, -, -, -⟩ := of_cycleOf made
    rw [mem_members_iff made]
    constructor
    · rintro ⟨s, inside, n, node, place, symbol⟩
      refine ⟨n, node, place, (cycle_assemble cycles node).2 ?_⟩
      exact ⟨c, listed, number.symm, s, inside, symbol⟩
    · rintro ⟨n, node, place, told⟩
      obtain ⟨b, other, same, s, inside, symbol⟩ := (cycle_assemble cycles node).1 told
      cases cycles.eq_of_number other listed (same.trans number)
      exact ⟨s, inside, n, node, place, symbol⟩
  shown n node number told := by
    obtain ⟨c, listed, rfl, -⟩ := (cycle_assemble cycles node).1 told
    obtain ⟨d, member, made⟩ := exists_view cycles p listed
    exact ⟨d, member, (of_cycleOf made).1⟩
  within n node m other number told told' e edge place := by
    obtain ⟨c, listed, rfl, s, inside, symbol⟩ := (cycle_assemble cycles node).1 told
    obtain ⟨d, listed', same, r, inside', symbol'⟩ := (cycle_assemble cycles other).1 told'
    cases cycles.eq_of_number listed' listed same
    have laid := laidOut_assemble p (some g)
    have first : (assemble p (some g)).StandsFor n.id s := ⟨n, node, rfl, symbol⟩
    have second : (assemble p (some g)).StandsFor e.node r := ⟨m, other, place.symm, symbol'⟩
    rcases edge with edge | edge
    · obtain ⟨v, here, there, call⟩ := (mem_callersOf_iff shown).1 edge
      cases laid.standsFor_unique here first
      rw [laid.standsFor_unique there second] at call
      exact call.charged_eq_zero shown (cycles.together listed inside' inside)
    · obtain ⟨u, here, there, call⟩ := (mem_calleesOf_iff shown).1 edge
      cases laid.standsFor_unique here first
      rw [laid.standsFor_unique there second] at call
      exact call.charged_eq_zero shown (cycles.together listed inside inside')

/-! ## Times -/

section Exact

variable {g : CallGraph Rat} {charge : Symbol → Symbol → Rat} {whole : Symbol → Rat}

theorem sum_charged_assemble (shown : HasCalls arcs g) {m : CallNode Rat} (node : m ∈ g.nodes)
    (place : (assemble p (some g)).StandsFor id m.symbol) :
    (((assemble p (some g)).calleesOf id).map (·.charged)).sum =
      (m.childTime.map (·.2)).sum := by
  have known : ∀ x ∈ m.callees, ∃ id, idOf? (groupsIn p g.nodes) x.1 = some id := by
    intro x listed
    rw [shown.callees m node, mem_calleesOf] at listed
    exact exists_id p ((shown.mem_symbols x.1).2 listed.1.mem_symbols.2)
  have amounts := ((edgesTo_perm m.chargedFor known).map fun x => m.chargedFor x.1).sum_eq
  rw [← shown.sum_chargedFor node, ← amounts, List.map_map,
    calleesOf_assemble shown.symbols_nodup node place]
  congr 1
  apply List.map_congr_left
  intro e edge
  exact (mem_edgesTo.1 edge).2.2

theorem ownAndCharged_assemble (shown : HasCalls arcs g)
    (solved : HasTimes arcs p.samples.count charge whole g) {n : TreeNode Rat} {m : CallNode Rat}
    (member : n ∈ (assemble p (some g)).nodes) (node : m ∈ g.nodes)
    (symbol : n.symbol? = some m.symbol) :
    (assemble p (some g)).ownAndCharged n = m.selfTime + (m.childTime.map (·.2)).sum := by
  have place : (assemble p (some g)).StandsFor n.id m.symbol := ⟨n, member, rfl, symbol⟩
  have own := ((shows_assemble p (some g)).own n member m.symbol symbol).1
  rw [ownAndCharged, sum_charged_assemble shown node place, own, solved.selfTime_eq m node]

variable (shown : HasCalls arcs g) (cycles : HasCycles arcs p.samples.count g)
  (sharing : IsSharing arcs p.samples.count charge whole)
  (solved : HasTimes arcs p.samples.count charge whole g)

include shown cycles sharing solved

theorem map_nodesAt_assemble {c : Cycle Rat} (member : c ∈ g.cycles) :
    ((assemble p (some g)).nodesAt (c.members.filterMap (idOf? (groupsIn p g.nodes)))).map
        (assemble p (some g)).ownAndCharged =
      c.members.map fun u => (p.samples.count u : Rat) + ∑ v ∈ Arc.symbols arcs, charge u v := by
  have each : ∀ u ∈ c.members,
      ((idOf? (groupsIn p g.nodes) u).bind fun id => (assemble p (some g)).nodes[id]?).map
        (assemble p (some g)).ownAndCharged =
          some ((p.samples.count u : Rat) + ∑ v ∈ Arc.symbols arcs, charge u v) := by
    intro u inside
    obtain ⟨m, node, rfl⟩ := shown.exists_node (cycles.member_mem_symbols member inside)
    obtain ⟨id, place⟩ := exists_id p (List.mem_map_of_mem node)
    obtain ⟨n, listed, rfl, symbol⟩ := idOf?_assemble.1 place
    have found := (laidOut_assemble p (some g)).place listed
    rw [place, Option.bind_some, found, Option.map_some,
      ownAndCharged_assemble shown solved listed node symbol, solved.selfTime_eq m node,
      solved.sum_childTime sharing node]
  rw [nodesAt, List.filterMap_filterMap, List.map_filterMap, List.filterMap_congr each,
    ← List.filterMap_eq_map]
  rfl

/-- The time of a cycle is that of its members together. -/
theorem whole_assemble {d : TreeCycle Rat} (member : d ∈ (assemble p (some g)).cycles) :
    d.cumulative = (((assemble p (some g)).nodesAt d.members).map
      (assemble p (some g)).ownAndCharged).sum := by
  obtain ⟨c, listed, made⟩ := exists_cycle member
  obtain ⟨-, members, -, cumulative⟩ := of_cycleOf made
  have inside := cycles.member_mem_symbols listed (cycles.head_mem c listed)
  obtain ⟨m, node, head⟩ := shown.exists_node inside
  have distinct := (List.nodup_flatMap.1 cycles.members_nodup).1 c listed
  calc d.cumulative = whole c.head := by
        rw [cumulative, (solved.head c listed m node head.symm).2, head]
    _ = ∑ u ∈ c.members.toFinset, (p.samples.count u + ∑ v ∈ Arc.symbols arcs, charge u v) := by
        rw [sharing.whole_eq c.head inside, cycles.componentOf_eq listed (cycles.head_mem c listed)]
    _ = (((assemble p (some g)).nodesAt d.members).map
          (assemble p (some g)).ownAndCharged).sum := by
        rw [List.sum_toFinset _ distinct, members,
          map_nodesAt_assemble shown cycles sharing solved listed]

theorem balances_assemble : (assemble p (some g)).Balances where
  own n member s symbol other := by
    have place : (assemble p (some g)).StandsFor n.id s := ⟨n, member, rfl, symbol⟩
    rcases hasNode_or_not member symbol with ⟨m, node, rfl, same⟩ | ⟨absent, -, -, -, amount⟩
    · -- a cycle of the graph has a view, so its head would be a head of the tree
      have noHead : ∀ c ∈ g.cycles, c.head ≠ m.symbol := by
        intro c listed head
        obtain ⟨d, view, made⟩ := exists_view cycles p listed
        obtain ⟨-, -, first, -⟩ := of_cycleOf made
        have second := idOf?_assemble.2 place
        rw [← head, first] at second
        exact other d view (Option.some.inj second)
      rw [ownAndCharged_assemble shown solved member node symbol, same.cumulative]
      exact solved.own m node noHead
    · rw [ownAndCharged, (edges_of_absent absent place).2, amount]
      exact (add_zero _).symm
  whole d member := whole_assemble shown cycles sharing solved member

end Exact

/-- The tree of arcs and samples tells of the calls twice, at the caller and at the callee, and
    both ways the same: an edge joins every two different symbols that arcs join, with all calls of
    these. Its cycles are those that the nodes tell of, and within one nothing is charged. With
    exact fractions the time of a symbol is what it has of its own and is charged for its callees,
    and that of a cycle what all of its members have. -/
theorem calls_mirror_and_balance (arcs : List Arc) (p : Samples) :
    (∀ (α : Type) [Times α] (g : CallGraph α) (t : Tree α),
      ofArcs arcs p.samples.count = .ok g → build p (some g) = .ok t →
        t.ShowsCalls arcs ∧ t.ShowsCycles) ∧
    ∃ (g : CallGraph Rat) (t : Tree Rat), ofArcs arcs p.samples.count = .ok g ∧
      build p (some g) = .ok t ∧ t.Balances := by
  constructor
  · intro α _ g t graph tree
    obtain ⟨components, charged, rfl⟩ := exists_components graph
    cases of_build tree
    exact ⟨showsCalls_assemble charged.hasCalls p,
      showsCycles_assemble charged.hasCalls charged.hasCycles p⟩
  · obtain ⟨components, charged, graph⟩ := ofArcs_exact arcs p.samples.count
    exact ⟨_, _, graph, build_exact p _, balances_assemble charged.hasCalls charged.hasCycles
      charged.isSharing charged.hasTimes⟩

end Tree

end CallProfile
