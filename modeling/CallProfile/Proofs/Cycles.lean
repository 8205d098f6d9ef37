import CallProfile.Proofs.Charging
import CallProfile.Proofs.Heads
import Mathlib.Data.Finset.Card

/-! # The cycles of a call graph

A cycle is a component that really has a circle of calls. The cycles are numbered in the
order of the components, callers first, and every node is told the number of its own.
-/

namespace CallProfile

/-- Whether symbols are all those of a circle of calls, be it one symbol that calls itself. -/
def Arc.IsCircle (arcs : List Arc) (members : Finset Symbol) : Prop :=
  (∀ s ∈ members, ∀ t, t ∈ members ↔ Together arcs s t) ∧
    (1 < members.card ∨ ∃ s, members = {s} ∧ 0 < calls arcs s s)

theorem Arc.IsCircle.mem_symbols {arcs : List Arc} {members : Finset Symbol} {s : Symbol}
    (circle : IsCircle arcs members) (inside : s ∈ members) : s ∈ symbols arcs := by
  rcases circle.2 with several | ⟨t, rfl, counted⟩
  · obtain ⟨t, other, differ⟩ := Finset.exists_mem_ne several s
    exact ((circle.1 s inside t).1 other).mem_symbols differ.symm
  · cases Finset.mem_singleton.1 inside
    by_contra outside
    have apart : ¬ Joins arcs s s := fun joins => outside joins.mem_symbols.1
    have none := calls_eq_zero apart
    omega

namespace CallGraph

open Arc

variable {α : Type}

/-! ## Entering the cycles -/

@[simp] theorem symbol_enterCycle (cycles : List (Cycle α)) (n : CallNode α) :
    (enterCycle cycles n).symbol = n.symbol := by
  unfold enterCycle
  split <;> rfl

@[simp] theorem selfTime_enterCycle (cycles : List (Cycle α)) (n : CallNode α) :
    (enterCycle cycles n).selfTime = n.selfTime := by
  unfold enterCycle
  split <;> rfl

@[simp] theorem childTime_enterCycle (cycles : List (Cycle α)) (n : CallNode α) :
    (enterCycle cycles n).childTime = n.childTime := by
  unfold enterCycle
  split <;> rfl

@[simp] theorem callers_enterCycle (cycles : List (Cycle α)) (n : CallNode α) :
    (enterCycle cycles n).callers = n.callers := by
  unfold enterCycle
  split <;> rfl

@[simp] theorem callees_enterCycle (cycles : List (Cycle α)) (n : CallNode α) :
    (enterCycle cycles n).callees = n.callees := by
  unfold enterCycle
  split <;> rfl

@[simp] theorem selfCalls_enterCycle (cycles : List (Cycle α)) (n : CallNode α) :
    (enterCycle cycles n).selfCalls = n.selfCalls := by
  unfold enterCycle
  split <;> rfl

theorem cycle_enterCycle {cycles : List (Cycle α)} {n : CallNode α} (plain : n.cycle = none) :
    (enterCycle cycles n).cycle = (cycles.find? (·.contains n.symbol)).map (·.number) := by
  unfold enterCycle
  split
  · next absent => rw [absent, plain]; rfl
  · next found => rw [found]; rfl

variable [Times α] {arcs : List Arc} {times : Symbol → Int}

/-- What a call graph says about cycles. -/
structure HasCycles (arcs : List Arc) (times : Symbol → Int) (g : CallGraph α) : Prop where
  /-- There is a node for every symbol, and no other. -/
  symbols_nodup : (g.nodes.map (·.symbol)).Nodup
  mem_symbols : ∀ s, s ∈ g.nodes.map (·.symbol) ↔ s ∈ symbols arcs
  /-- The cycles are the circles of calls, each of them once. -/
  circles : ∀ members, (∃ c ∈ g.cycles, c.members.toFinset = members) ↔ IsCircle arcs members
  members_nodup : (g.cycles.flatMap (·.members)).Nodup
  /-- The cycles are numbered from one, and the nodes know these numbers. -/
  numbers : g.cycles.map (·.number) = List.range' 1 g.cycles.length
  cycle_iff : ∀ n ∈ g.nodes, ∀ number,
    n.cycle = some number ↔ ∃ c ∈ g.cycles, c.number = number ∧ n.symbol ∈ c.members
  head_mem : ∀ c ∈ g.cycles, c.head ∈ c.members
  selfTime_eq : ∀ c ∈ g.cycles, c.selfTime = (c.members.map times).sum
  callsIn_eq : ∀ c ∈ g.cycles, c.callsIn = entering arcs c.members.toFinset
  /-- A cycle that reaches another one has the lower number. -/
  callersFirst : ∀ c ∈ g.cycles, ∀ d ∈ g.cycles, c.number ≠ d.number →
    ∀ s ∈ c.members, ∀ t ∈ d.members, Reaches arcs s t → c.number < d.number

namespace HasCycles

variable {g : CallGraph α} {c d : Cycle α}

omit [Times α]

theorem isCircle (cycles : HasCycles arcs times g) (member : c ∈ g.cycles) :
    IsCircle arcs c.members.toFinset :=
  (cycles.circles _).1 ⟨c, member, rfl⟩

theorem member_mem_symbols (cycles : HasCycles arcs times g) (member : c ∈ g.cycles) {s : Symbol}
    (inside : s ∈ c.members) : s ∈ symbols arcs :=
  (cycles.isCircle member).mem_symbols (List.mem_toFinset.2 inside)

theorem together (cycles : HasCycles arcs times g) (member : c ∈ g.cycles) {s t : Symbol}
    (first : s ∈ c.members) (second : t ∈ c.members) : Together arcs s t :=
  ((cycles.isCircle member).1 s (List.mem_toFinset.2 first) t).1 (List.mem_toFinset.2 second)

theorem numbers_nodup (cycles : HasCycles arcs times g) : (g.cycles.map (·.number)).Nodup := by
  rw [cycles.numbers]
  exact List.nodup_range'

theorem eq_of_number (cycles : HasCycles arcs times g) (first : c ∈ g.cycles)
    (second : d ∈ g.cycles) (same : c.number = d.number) : c = d :=
  List.inj_on_of_nodup_map cycles.numbers_nodup first second same

end HasCycles

/-! ## The cycle of a component -/

/-- The nodes of the members of a component, in the order of its cycle. -/
def ownNodes (nodes : List (CallNode α)) (c : Component α) : List (CallNode α) :=
  (c.members.mergeSort byStart).filterMap fun s => nodes.find? (·.symbol = s)

variable {components parts : List (Component α)} {c : Component α} {cycle : Cycle α}
  {nodes : List (CallNode α)} {number : Nat}

theorem cycleOfComponent_eq_some :
    cycleOfComponent nodes number c = some cycle ↔
      isCycle (ownNodes nodes c) = true ∧ ∃ head, headOf (ownNodes nodes c) = some head ∧
        cycle = { number, members := c.members.mergeSort byStart, head := head.symbol
                  selfTime := ((ownNodes nodes c).map (·.selfTime)).sum
                  cumulative := c.cumulative, callsIn := c.callsIn } := by
  unfold cycleOfComponent ownNodes
  dsimp only
  generalize (c.members.mergeSort byStart).filterMap _ = own
  by_cases circle : isCycle own = true
  · cases found : headOf own with
    | none => simp [circle]
    | some head => simp [circle, eq_comm]
  · simp [circle]

theorem mem_of_cycle (made : cycleOfComponent nodes number c = some cycle) {s : Symbol} :
    s ∈ cycle.members ↔ s ∈ c.members := by
  obtain ⟨_, head, _, rfl⟩ := cycleOfComponent_eq_some.1 made
  exact List.mem_mergeSort

theorem toFinset_of_cycle (made : cycleOfComponent nodes number c = some cycle) :
    cycle.members.toFinset = c.members.toFinset := by
  ext s
  simp only [List.mem_toFinset, mem_of_cycle made]

theorem number_of_cycle (made : cycleOfComponent nodes number c = some cycle) :
    cycle.number = number := by
  obtain ⟨_, head, _, rfl⟩ := cycleOfComponent_eq_some.1 made
  rfl

/-! ## Numbering -/

theorem component_of_mem_cyclesOf (member : cycle ∈ cyclesOf nodes number parts) :
    ∃ c ∈ parts, ∃ k, cycleOfComponent nodes k c = some cycle := by
  induction parts generalizing number with
  | nil => simp [cyclesOf] at member
  | cons c parts ih =>
      simp only [cyclesOf] at member
      split at member
      · next made =>
          rcases List.mem_cons.1 member with rfl | later
          · exact ⟨c, by simp, number, made⟩
          · obtain ⟨d, listed, made⟩ := ih later
            exact ⟨d, List.mem_cons_of_mem c listed, made⟩
      · obtain ⟨d, listed, made⟩ := ih member
        exact ⟨d, List.mem_cons_of_mem c listed, made⟩

theorem exists_number (nodes : List (CallNode α)) (number : Nat) (member : c ∈ parts) :
    ∃ k, ∀ cycle, cycleOfComponent nodes k c = some cycle →
      cycle ∈ cyclesOf nodes number parts := by
  induction parts generalizing number with
  | nil => simp at member
  | cons d parts ih =>
      simp only [cyclesOf]
      rcases List.mem_cons.1 member with rfl | later
      · refine ⟨number, fun cycle made => ?_⟩
        simp [made]
      · split
        · obtain ⟨k, listed⟩ := ih (number + 1) later
          exact ⟨k, fun cycle made => List.mem_cons_of_mem _ (listed cycle made)⟩
        · exact ih number later

theorem map_number_cyclesOf (nodes : List (CallNode α)) (number : Nat)
    (parts : List (Component α)) :
    (cyclesOf nodes number parts).map (·.number) =
      List.range' number (cyclesOf nodes number parts).length := by
  induction parts generalizing number with
  | nil => rfl
  | cons c parts ih =>
      simp only [cyclesOf]
      split
      · next made =>
          rw [List.map_cons, List.length_cons, List.range'_succ, number_of_cycle made, ih]
      · exact ih number

theorem pairwise_cyclesOf {r : Symbol → Symbol → Prop}
    (apart : parts.Pairwise fun c d => ∀ s ∈ c.members, ∀ t ∈ d.members, r s t) :
    (cyclesOf nodes number parts).Pairwise fun c d =>
      ∀ s ∈ c.members, ∀ t ∈ d.members, r s t := by
  induction parts generalizing number with
  | nil => exact .nil
  | cons c parts ih =>
      rw [List.pairwise_cons] at apart
      simp only [cyclesOf]
      split
      · next made =>
          refine .cons (fun later member s first t second => ?_) (ih apart.2)
          obtain ⟨d, listed, k, made'⟩ := component_of_mem_cyclesOf member
          exact apart.1 d listed s ((mem_of_cycle made).1 first) t ((mem_of_cycle made').1 second)
      · exact ih apart.2

/-! ## The nodes -/

/-- The nodes of the symbols, before the cycles are known. -/
def plainNodes (arcs : List Arc) (times : Symbol → Int) (components : List (Component α)) :
    List (CallNode α) :=
  (verticesOf (merge arcs)).map (nodeOf (merge arcs) times components)

theorem mem_plainNodes {n : CallNode α} : n ∈ plainNodes arcs times components ↔
    ∃ s ∈ symbols arcs, n = nodeOf (merge arcs) times components s := by
  simp [plainNodes, mem_verticesOf, eq_comm]

theorem find?_plainNodes {s : Symbol} (inside : s ∈ symbols arcs) :
    (plainNodes arcs times components).find? (·.symbol = s) =
      some (nodeOf (merge arcs) times components s) := by
  refine find?_of_unique (mem_plainNodes.2 ⟨s, inside, rfl⟩) (decide_eq_true rfl) ?_
  intro n member same
  obtain ⟨t, _, rfl⟩ := mem_plainNodes.1 member
  rw [show t = s from of_decide_eq_true same]

/-! ## The cycles -/

namespace IsCharged

theorem mem_symbols (charged : IsCharged arcs times components) (member : c ∈ components)
    {s : Symbol} (inside : s ∈ c.members) : s ∈ symbols arcs :=
  charged.division.mem_symbols (List.mem_map_of_mem member) inside

theorem members_nodup (charged : IsCharged arcs times components) (member : c ∈ components) :
    c.members.Nodup :=
  (List.nodup_flatten.1 charged.division.distinct).1 c.members (List.mem_map_of_mem member)

theorem members_ne_nil (charged : IsCharged arcs times components) (member : c ∈ components) :
    c.members ≠ [] :=
  charged.division.nonempty c.members (List.mem_map_of_mem member)

theorem ownNodes_eq (charged : IsCharged arcs times components) (member : c ∈ components) :
    ownNodes (plainNodes arcs times components) c =
      (c.members.mergeSort byStart).map (nodeOf (merge arcs) times components) := by
  unfold ownNodes
  rw [← List.filterMap_eq_map]
  refine List.filterMap_congr fun s inside => ?_
  exact find?_plainNodes (charged.mem_symbols member (List.mem_mergeSort.1 inside))

/-- A component is a cycle when its members are a circle of calls. -/
theorem isCycle_iff (charged : IsCharged arcs times components) (member : c ∈ components) :
    isCycle (ownNodes (plainNodes arcs times components) c) = true ↔
      IsCircle arcs c.members.toFinset := by
  have size : c.members.toFinset.card = c.members.length :=
    List.toFinset_card_of_nodup (charged.members_nodup member)
  have closed : ∀ s ∈ c.members.toFinset, ∀ t, t ∈ c.members.toFinset ↔ Together arcs s t := by
    intro s inside t
    rw [List.mem_toFinset] at inside ⊢
    exact charged.same_iff member inside
  have loops : ((c.members.mergeSort byStart).map (nodeOf (merge arcs) times components)).any
      (fun n => decide (0 < n.selfCalls)) = true ↔ ∃ s ∈ c.members, 0 < calls arcs s s := by
    simp [nodeOf, selfCallsOf_merge]
  rw [isCycle, charged.ownNodes_eq member, Bool.or_eq_true, loops, decide_eq_true_eq,
    List.length_map, List.length_mergeSort, IsCircle, and_iff_right closed, size]
  constructor
  · rintro (several | ⟨s, inside, loop⟩)
    · exact .inl several
    -- When the component has one member, it is the one that calls itself.
    · by_cases several : 1 < c.members.length
      · exact .inl several
      · refine .inr ⟨s, ?_, loop⟩
        have one : c.members.toFinset.card ≤ 1 := by omega
        exact Finset.eq_singleton_iff_unique_mem.2 ⟨List.mem_toFinset.2 inside, fun t there =>
          Finset.card_le_one.1 one t there s (List.mem_toFinset.2 inside)⟩
  · rintro (several | ⟨s, alone, loop⟩)
    · exact .inl several
    · exact .inr ⟨s, by simp [← List.mem_toFinset, alone], loop⟩

theorem exists_head (charged : IsCharged arcs times components) (member : c ∈ components) :
    ∃ head, headOf (ownNodes (plainNodes arcs times components) c) = some head := by
  cases own : ownNodes (plainNodes arcs times components) c with
  | nil =>
      have length := congrArg List.length own
      rw [charged.ownNodes_eq member, List.length_map, List.length_mergeSort] at length
      exact absurd (List.eq_nil_of_length_eq_zero length) (charged.members_ne_nil member)
  | cons n nodes => exact ⟨_, rfl⟩

/-- A circle of calls is a component. -/
theorem exists_component_of_isCircle (charged : IsCharged arcs times components)
    {members : Finset Symbol} (circle : IsCircle arcs members) :
    ∃ c ∈ components, c.members.toFinset = members := by
  obtain ⟨s, here, inside⟩ : ∃ s ∈ members, s ∈ symbols arcs := by
    rcases circle.2 with several | ⟨s, alone, loop⟩
    · obtain ⟨s, first, t, second, differ⟩ := Finset.one_lt_card.1 several
      exact ⟨s, first, ((circle.1 s first t).1 second).mem_symbols differ⟩
    · have joins : Joins arcs s s := by
        by_contra apart
        rw [calls_eq_zero apart] at loop
        omega
      exact ⟨s, by simp [alone], joins.mem_symbols.1⟩
  obtain ⟨c, member, there⟩ := charged.exists_component inside
  refine ⟨c, member, ?_⟩
  ext t
  rw [List.mem_toFinset, charged.same_iff member there, circle.1 s here]

end IsCharged

/-- The cycles of the components, callers first. -/
abbrev cyclesIn (arcs : List Arc) (times : Symbol → Int) (components : List (Component α)) :
    List (Cycle α) :=
  cyclesOf (plainNodes arcs times components) 1 components.reverse

theorem mem_nodes_ofComponents {n : CallNode α} :
    n ∈ (ofComponents (merge arcs) times components).nodes ↔ ∃ s ∈ symbols arcs,
      n = enterCycle (cyclesIn arcs times components)
        (nodeOf (merge arcs) times components s) := by
  simp only [ofComponents, List.map_map, List.mem_map, mem_verticesOf, eq_comm]
  rfl

theorem component_of_mem_cyclesIn (member : cycle ∈ cyclesIn arcs times components) :
    ∃ c ∈ components, ∃ k,
      cycleOfComponent (plainNodes arcs times components) k c = some cycle := by
  obtain ⟨c, listed, made⟩ := component_of_mem_cyclesOf member
  exact ⟨c, List.mem_reverse.1 listed, made⟩

namespace IsCharged

theorem exists_cycle (charged : IsCharged arcs times components) (member : c ∈ components)
    (circle : IsCircle arcs c.members.toFinset) :
    ∃ cycle ∈ cyclesIn arcs times components, ∃ k,
      cycleOfComponent (plainNodes arcs times components) k c = some cycle := by
  obtain ⟨head, found⟩ := charged.exists_head member
  obtain ⟨k, listed⟩ := exists_number (plainNodes arcs times components) 1
    (List.mem_reverse.2 member)
  obtain ⟨cycle, made⟩ : ∃ cycle,
      cycleOfComponent (plainNodes arcs times components) k c = some cycle :=
    ⟨_, cycleOfComponent_eq_some.2 ⟨(charged.isCycle_iff member).2 circle, head, found, rfl⟩⟩
  exact ⟨cycle, listed cycle made, k, made⟩

theorem circles_iff (charged : IsCharged arcs times components) (members : Finset Symbol) :
    (∃ cycle ∈ cyclesIn arcs times components, cycle.members.toFinset = members) ↔
      IsCircle arcs members := by
  constructor
  · rintro ⟨cycle, listed, rfl⟩
    obtain ⟨c, member, k, made⟩ := component_of_mem_cyclesIn listed
    rw [toFinset_of_cycle made, ← charged.isCycle_iff member]
    exact (cycleOfComponent_eq_some.1 made).1
  · intro circle
    obtain ⟨c, member, rfl⟩ := charged.exists_component_of_isCircle circle
    obtain ⟨cycle, listed, k, made⟩ := charged.exists_cycle member circle
    exact ⟨cycle, listed, toFinset_of_cycle made⟩

/-- No symbol is in two cycles. -/
theorem cycles_apart (charged : IsCharged arcs times components) :
    (cyclesIn arcs times components).Pairwise fun c d =>
      ∀ s ∈ c.members, ∀ t ∈ d.members, s ≠ t := by
  apply pairwise_cyclesOf
  have apart := (List.nodup_flatten.1 charged.division.distinct).2
  rw [List.pairwise_map] at apart
  rw [List.pairwise_reverse]
  refine apart.imp fun disjoint s first t second same => ?_
  exact disjoint second (same ▸ first)

theorem cycle_unique (charged : IsCharged arcs times components) {d : Cycle α}
    (first : cycle ∈ cyclesIn arcs times components) (second : d ∈ cyclesIn arcs times components)
    {s : Symbol} (here : s ∈ cycle.members) (there : s ∈ d.members) : cycle = d := by
  have apart := charged.cycles_apart
  have unique := List.Pairwise.forall_of_forall_of_flip
    (R := fun c d : Cycle α => ∀ s ∈ c.members, s ∈ d.members → c = d) (fun _ _ _ _ _ => rfl)
    (apart.imp fun differ s one two => absurd rfl (differ s one s two))
    (apart.imp fun differ s one two => absurd rfl (differ s two s one))
  exact unique first second s here there

theorem find?_cycle (charged : IsCharged arcs times components) {s : Symbol}
    (member : cycle ∈ cyclesIn arcs times components) (inside : s ∈ cycle.members) :
    (cyclesIn arcs times components).find? (·.contains s) = some cycle := by
  refine find?_of_unique member (List.contains_iff_mem.2 inside) fun d other here => ?_
  exact charged.cycle_unique other member (List.contains_iff_mem.1 here) inside

/-- A cycle that reaches another one has the lower number. -/
theorem number_lt (charged : IsCharged arcs times components) {d : Cycle α}
    (first : cycle ∈ cyclesIn arcs times components) (second : d ∈ cyclesIn arcs times components)
    (differ : cycle.number ≠ d.number) {s t : Symbol} (here : s ∈ cycle.members)
    (there : t ∈ d.members) (path : Reaches arcs s t) : cycle.number < d.number := by
  have forward := charged.division.perm (List.reverse_perm _) |>.forward charged.calleesFirst
  rw [← List.map_reverse, List.pairwise_map] at forward
  have blocked : (cyclesIn arcs times components).Pairwise fun c d =>
      ∀ w ∈ c.members, ∀ u ∈ d.members, ¬ Reaches arcs u w :=
    pairwise_cyclesOf (forward.imp fun none w early u late => none u late w early)
  have rising : (cyclesIn arcs times components).Pairwise fun c d => c.number < d.number := by
    rw [← List.pairwise_map, map_number_cyclesOf]
    exact List.pairwise_lt_range'
  -- The numbers rise from an earlier cycle to a later one, and no path leads back.
  have ordered := List.Pairwise.forall_of_forall_of_flip
    (R := fun c d : Cycle α => c.number ≠ d.number → ∀ s ∈ c.members, ∀ t ∈ d.members,
      Reaches arcs s t → c.number < d.number) (fun _ _ same => absurd rfl same)
    (rising.imp fun less _ _ _ _ _ _ => less)
    (blocked.imp fun none _ s late t early back => absurd back (none t early s late))
  exact ordered first second differ s here t there path

theorem head_mem (charged : IsCharged arcs times components)
    (member : cycle ∈ cyclesIn arcs times components) : cycle.head ∈ cycle.members := by
  obtain ⟨c, listed, k, made⟩ := component_of_mem_cyclesIn member
  obtain ⟨_, head, found, rfl⟩ := cycleOfComponent_eq_some.1 made
  have inside := headOf_mem found
  rw [charged.ownNodes_eq listed] at inside
  obtain ⟨s, here, rfl⟩ := List.mem_map.1 inside
  exact here

theorem selfTime_eq (charged : IsCharged arcs times components)
    (member : cycle ∈ cyclesIn arcs times components) :
    cycle.selfTime = (cycle.members.map times).sum := by
  obtain ⟨c, listed, k, made⟩ := component_of_mem_cyclesIn member
  obtain ⟨_, head, found, rfl⟩ := cycleOfComponent_eq_some.1 made
  rw [charged.ownNodes_eq listed, List.map_map]
  rfl

theorem callsIn_of_cycle (charged : IsCharged arcs times components)
    (member : cycle ∈ cyclesIn arcs times components) :
    cycle.callsIn = entering arcs cycle.members.toFinset := by
  obtain ⟨c, listed, k, made⟩ := component_of_mem_cyclesIn member
  have same := toFinset_of_cycle made
  obtain ⟨_, head, found, rfl⟩ := cycleOfComponent_eq_some.1 made
  rw [same]
  exact charged.callsIn_eq listed

theorem members_nodup_of_cycle (charged : IsCharged arcs times components)
    (member : cycle ∈ cyclesIn arcs times components) : cycle.members.Nodup := by
  obtain ⟨c, listed, k, made⟩ := component_of_mem_cyclesIn member
  obtain ⟨_, head, found, rfl⟩ := cycleOfComponent_eq_some.1 made
  exact List.mergeSort_perm _ _ |>.nodup_iff.2 (charged.members_nodup listed)

theorem cycle_iff (charged : IsCharged arcs times components) {s : Symbol} {k : Nat} :
    (enterCycle (cyclesIn arcs times components) (nodeOf (merge arcs) times components s)).cycle =
        some k ↔
      ∃ c ∈ cyclesIn arcs times components, c.number = k ∧ s ∈ c.members := by
  rw [cycle_enterCycle rfl, Option.map_eq_some_iff]
  constructor
  · rintro ⟨c, found, number⟩
    have inside := List.find?_some found
    exact ⟨c, List.mem_of_find?_eq_some found, number, List.contains_iff_mem.1 inside⟩
  · rintro ⟨c, member, number, inside⟩
    exact ⟨c, charged.find?_cycle member inside, number⟩

theorem hasCycles (charged : IsCharged arcs times components) :
    HasCycles arcs times (ofComponents (merge arcs) times components) := by
  have symbols : (ofComponents (merge arcs) times components).nodes.map (·.symbol) =
      verticesOf (merge arcs) := by
    simp [ofComponents, Function.comp_def, nodeOf]
  refine
    { symbols_nodup := by rw [symbols]; exact nodup_verticesOf (merge arcs)
      mem_symbols := fun s => by rw [symbols]; exact mem_verticesOf
      circles := charged.circles_iff
      members_nodup := List.nodup_flatMap.2
        ⟨fun c member => charged.members_nodup_of_cycle member, ?_⟩
      numbers := map_number_cyclesOf _ 1 components.reverse
      cycle_iff := ?_
      head_mem := fun c member => charged.head_mem member
      selfTime_eq := fun c member => charged.selfTime_eq member
      callsIn_eq := fun c member => charged.callsIn_of_cycle member
      callersFirst := fun c first d second differ s here t there path =>
        charged.number_lt first second differ here there path }
  · exact charged.cycles_apart.imp fun apart s here there => apart s here s there rfl
  · intro n member k
    obtain ⟨plain, listed, rfl⟩ := List.mem_map.1 member
    obtain ⟨s, _, rfl⟩ := List.mem_map.1 listed
    rw [symbol_enterCycle]
    exact charged.cycle_iff

end IsCharged

/-! ## The heads -/

theorem leads_enterCycle {cycles : List (Cycle Rat)} {a b : CallNode Rat} (leads : a.Leads b) :
    (enterCycle cycles a).Leads (enterCycle cycles b) := by
  have weight : ∀ n : CallNode Rat, (enterCycle cycles n).weight = n.weight := by
    intro n
    simp only [CallNode.weight, selfTime_enterCycle, childTime_enterCycle]
  simpa only [CallNode.Leads, weight, symbol_enterCycle] using leads

/-- With exact fractions the head of a cycle stands before all its members. -/
theorem IsCharged.head_leads {components : List (Component Rat)} {cycle : Cycle Rat}
    (charged : IsCharged arcs times components)
    (member : cycle ∈ (ofComponents (merge arcs) times components).cycles) :
    ∃ head ∈ (ofComponents (merge arcs) times components).nodes, head.symbol = cycle.head ∧
      ∀ n ∈ (ofComponents (merge arcs) times components).nodes,
        n.symbol ∈ cycle.members → head.Leads n := by
  obtain ⟨c, listed, k, made⟩ := component_of_mem_cyclesIn member
  have inside := fun s => mem_of_cycle (s := s) made
  obtain ⟨_, head, found, rfl⟩ := cycleOfComponent_eq_some.1 made
  have own := charged.ownNodes_eq listed
  have leads := headOf_leads (fun n here => by
    rw [own] at here
    obtain ⟨s, _, rfl⟩ := List.mem_map.1 here
    exact hasOwnTime_nodeOf (merge arcs) times components s) found
  have chosen := headOf_mem found
  rw [own] at leads chosen
  obtain ⟨s, here, rfl⟩ := List.mem_map.1 chosen
  have present := charged.mem_symbols listed (List.mem_mergeSort.1 here)
  refine ⟨_, List.mem_map_of_mem (mem_plainNodes.2 ⟨s, present, rfl⟩), by simp, ?_⟩
  intro n node
  obtain ⟨plain, plainNode, rfl⟩ := List.mem_map.1 node
  obtain ⟨t, _, rfl⟩ := mem_plainNodes.1 plainNode
  intro there
  rw [symbol_enterCycle] at there
  exact leads_enterCycle (leads _ (List.mem_map_of_mem there))

/-- The cycles of a call graph are the circles of calls, whatever the numbers that its times
    are counted in; nothing but an overflow keeps a list of arcs from having a call graph.
    With exact fractions no member of a cycle has more time than its head, nor as much and a
    lower start. -/
theorem cycles_are_circles (arcs : List Arc) (times : Symbol → Int) :
    (∀ (α : Type) [Times α],
      (∀ fault, (ofArcs arcs times : Except Fault (CallGraph α)) = .error fault →
        fault = .overflow) ∧
      ∀ g : CallGraph α, ofArcs arcs times = .ok g → HasCycles arcs times g) ∧
    ∃ g : CallGraph Rat, ofArcs arcs times = .ok g ∧
      ∀ c ∈ g.cycles, ∃ head ∈ g.nodes, head.symbol = c.head ∧
        ∀ n ∈ g.nodes, n.symbol ∈ c.members → head.Leads n := by
  constructor
  · intro α _
    obtain ⟨components, charged, graph⟩ := ofArcs_eq (α := α) arcs times
    rw [graph]
    split
    · constructor
      · intro fault failed
        cases failed
      · intro g made
        cases made
        exact charged.hasCycles
    · constructor
      · intro fault failed
        cases failed
        rfl
      · intro g made
        cases made
  · obtain ⟨components, charged, graph⟩ := ofArcs_exact arcs times
    exact ⟨_, graph, fun c member => charged.head_leads member⟩

end CallGraph

end CallProfile
