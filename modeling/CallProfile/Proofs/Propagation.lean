import CallProfile.Proofs.Cycles
import CallProfile.Proofs.Sharing
import Mathlib.Algebra.BigOperators.Ring.Finset

/-! # Propagating times

With exact fractions the times of a call graph solve the equations of sharing out: what is
read from the components finished so far is what the equations say of all of them.
-/

namespace CallProfile.CallGraph

open Arc

variable {arcs : List Arc} {times : Symbol → Int} {components : List (Component Rat)}
  {c : Component Rat} {s u v : Symbol}

/-! ## The solution -/

/-- The time of the component of a symbol. -/
def wholeIn (components : List (Component Rat)) (s : Symbol) : Rat :=
  ((components.find? (·.members.contains s)).map (·.cumulative)).getD 0

open Classical in
/-- What one symbol is charged for another. -/
noncomputable def chargeIn (arcs : List Arc) (components : List (Component Rat))
    (u v : Symbol) : Rat :=
  if Together arcs u v ∨ entering arcs (componentOf arcs v) = 0 then 0
  else wholeIn components v * calls arcs u v / entering arcs (componentOf arcs v)

theorem chargeIn_of_not_joins (none : ¬ Joins arcs u v) : chargeIn arcs components u v = 0 := by
  simp [chargeIn, calls_eq_zero none]

namespace IsCharged

theorem componentOf_eq (charged : IsCharged arcs times components) (member : c ∈ components)
    (inside : s ∈ c.members) : componentOf arcs s = c.members.toFinset :=
  charged.division.componentOf_eq (List.mem_map_of_mem member) inside

theorem wholeIn_eq (charged : IsCharged arcs times components) (member : c ∈ components)
    (inside : s ∈ c.members) : wholeIn components s = c.cumulative := by
  rw [wholeIn, charged.find?_component member inside]
  rfl

theorem share_eq (charged : IsCharged arcs times components) (member : c ∈ components)
    (inside : v ∈ c.members) (apart : ¬ Together arcs u v) :
    Component.share c (calls arcs u v) = chargeIn arcs components u v := by
  rw [Component.share, chargeIn, charged.callsIn_eq member, charged.componentOf_eq member inside,
    charged.wholeIn_eq member inside]
  simp only [apart, false_or]
  rfl

theorem mem_charges_exact (charged : IsCharged arcs times components) {x : Rat} :
    (v, x) ∈ charges (merge arcs) (outside components s) s ↔
      Joins arcs s v ∧ ¬ Together arcs s v ∧ x = chargeIn arcs components s v := by
  rw [charged.mem_charges]
  refine and_congr_right fun joins => and_congr_right fun apart => ?_
  constructor
  · rintro ⟨d, member, inside, rfl⟩
    exact charged.share_eq member inside apart
  · intro amount
    obtain ⟨d, member, inside⟩ := charged.exists_component joins.mem_symbols.2
    exact ⟨d, member, inside, amount.trans (charged.share_eq member inside apart).symm⟩

theorem sum_charges_exact (charged : IsCharged arcs times components) (s : Symbol) :
    ((charges (merge arcs) (outside components s) s).map (·.2)).sum =
      ∑ v ∈ symbols arcs, chargeIn arcs components s v := by
  have all := Tally.amountOf_eq_sum (p := fun _ => true)
    (nodup_charges (merge arcs) (outside components s) s)
    (fun e member => (charged.mem_charges_exact.1 member).2.2)
    (fun e member _ => (charged.mem_charges_exact.1 member).1.mem_symbols.2) (fun v _ => ?_)
  · rwa [Tally.amountOf, List.filter_true] at all
  · by_cases together : Together arcs s v
    · exact .inr (by simp [chargeIn, together])
    · by_cases joins : Joins arcs s v
      · have listed := charged.mem_charges_exact.2 ⟨joins, together, rfl⟩
        exact .inl ⟨rfl, List.mem_map_of_mem listed⟩
      · exact .inr (chargeIn_of_not_joins joins)

theorem cumulative_exact (charged : IsCharged arcs times components) (member : c ∈ components) :
    c.cumulative = ∑ u ∈ c.members.toFinset,
      (times u + ∑ v ∈ symbols arcs, chargeIn arcs components u v) := by
  have own : (Times.ofInt (selfTimeOf times c.members) : Rat) =
      (c.members.map fun u => (times u : Rat)).sum := by
    rw [Times.ofInt_exact, selfTimeOf, Int.cast_list_sum, List.map_map]
    rfl
  rw [charged.cumulative_eq member, Times.foldl_add_exact, Finset.sum_add_distrib, own,
    List.sum_toFinset _ (charged.members_nodup member),
    List.sum_toFinset _ (charged.members_nodup member), List.flatMap, List.sum_flatten,
    List.map_map]
  congr 2
  exact List.map_congr_left fun u _ => charged.sum_charges_exact u

/-- The times of the components and the charges solve the equations of sharing out. -/
theorem isSharing (charged : IsCharged arcs times components) :
    IsSharing arcs times (chargeIn arcs components) (wholeIn components) where
  together u v together := by simp [chargeIn, together]
  apart u v apart := by simp [chargeIn, apart]
  whole_eq s inside := by
    obtain ⟨c, member, here⟩ := charged.exists_component inside
    rw [charged.wholeIn_eq member here, charged.componentOf_eq member here]
    exact charged.cumulative_exact member

end IsCharged

/-! ## The times of a call graph -/

/-- What a call graph shows of charges and of the times of components. -/
structure HasTimes (arcs : List Arc) (times : Symbol → Int) (charge : Symbol → Symbol → Rat)
    (whole : Symbol → Rat) (g : CallGraph Rat) : Prop where
  division : IsDivision arcs (g.components.map (·.members))
  callsIn_eq : ∀ c ∈ g.components, c.callsIn = entering arcs c.members.toFinset
  cumulative_eq : ∀ c ∈ g.components, ∀ s ∈ c.members, c.cumulative = whole s
  symbols_nodup : (g.nodes.map (·.symbol)).Nodup
  mem_symbols : ∀ s, s ∈ g.nodes.map (·.symbol) ↔ s ∈ symbols arcs
  selfTime_eq : ∀ n ∈ g.nodes, n.selfTime = times n.symbol
  /-- A node is charged once for each callee outside its component, and for no other. -/
  childTime_nodup : ∀ n ∈ g.nodes, (n.childTime.map (·.1)).Nodup
  mem_childTime : ∀ n ∈ g.nodes, ∀ v x, (v, x) ∈ n.childTime ↔
    Joins arcs n.symbol v ∧ ¬ Together arcs n.symbol v ∧ x = charge n.symbol v
  /-- A node has its own samples and what it is charged, the head of a cycle those of all. -/
  own : ∀ n ∈ g.nodes, (∀ c ∈ g.cycles, c.head ≠ n.symbol) →
    n.cumulative.toTime = n.selfTime + (n.childTime.map (·.2)).sum
  head : ∀ c ∈ g.cycles, ∀ n ∈ g.nodes, c.head = n.symbol →
    n.cumulative.toTime = c.cumulative ∧ c.cumulative = whole n.symbol

/-- What the nodes outside a component are charged for it. -/
def received (g : CallGraph Rat) (c : Component Rat) : Rat :=
  ((g.nodes.filter fun n => n.symbol ∉ c.members).map fun n =>
    Tally.amountOf n.childTime fun v => v ∈ c.members).sum

variable {cycles : List (Cycle Rat)} {n : CallNode Rat}

theorem cumulative_of_not_head (other : ∀ c ∈ cycles, c.head ≠ n.symbol) :
    (enterCycle cycles n).cumulative = n.cumulative := by
  unfold enterCycle
  split
  · rfl
  · next found => exact if_neg (other _ (List.mem_of_find?_eq_some found))

namespace IsCharged

theorem cumulative_of_head (charged : IsCharged arcs times components) {cycle : Cycle Rat}
    (member : cycle ∈ cyclesIn arcs times components) (head : cycle.head = n.symbol) :
    (enterCycle (cyclesIn arcs times components) n).cumulative = .time cycle.cumulative := by
  have inside := charged.head_mem member
  rw [head] at inside
  simp only [enterCycle, charged.find?_cycle member inside, if_pos head]

theorem cumulative_of_cycle (charged : IsCharged arcs times components) {cycle : Cycle Rat}
    (member : cycle ∈ cyclesIn arcs times components) (inside : s ∈ cycle.members) :
    cycle.cumulative = wholeIn components s := by
  obtain ⟨c, listed, k, made⟩ := component_of_mem_cyclesIn member
  rw [charged.wholeIn_eq listed ((mem_of_cycle made).1 inside)]
  obtain ⟨_, head, _, rfl⟩ := cycleOfComponent_eq_some.1 made
  rfl

theorem hasTimes (charged : IsCharged arcs times components) :
    HasTimes arcs times (chargeIn arcs components) (wholeIn components)
      (ofComponents (merge arcs) times components) := by
  have cycles := charged.hasCycles
  refine
    { division := charged.division
      callsIn_eq := fun c member => charged.callsIn_eq member
      cumulative_eq := fun c member s inside => (charged.wholeIn_eq member inside).symm
      symbols_nodup := cycles.symbols_nodup
      mem_symbols := cycles.mem_symbols
      selfTime_eq := fun n member => ?_
      childTime_nodup := fun n member => ?_
      mem_childTime := fun n member v x => ?_
      own := fun n member other => ?_
      head := fun c listed n member head => ?_ }
  all_goals obtain ⟨s, -, rfl⟩ := mem_nodes_ofComponents.1 member
  · rw [selfTime_enterCycle, symbol_enterCycle]
    rfl
  · rw [childTime_enterCycle]
    exact nodup_charges (merge arcs) (outside components s) s
  · rw [childTime_enterCycle, symbol_enterCycle]
    exact charged.mem_charges_exact
  · have same : (enterCycle (cyclesIn arcs times components)
        (nodeOf (merge arcs) times components s)).cumulative =
          (nodeOf (merge arcs) times components s).cumulative :=
      cumulative_of_not_head fun c listed => by
        have differ := other c listed
        rwa [symbol_enterCycle] at differ
    rw [same, selfTime_enterCycle, childTime_enterCycle]
    exact hasOwnTime_nodeOf (merge arcs) times components s
  · rw [symbol_enterCycle] at head ⊢
    rw [charged.cumulative_of_head listed head]
    refine ⟨rfl, charged.cumulative_of_cycle listed ?_⟩
    rw [← head]
    exact charged.head_mem listed

end IsCharged

namespace HasTimes

variable {charge : Symbol → Symbol → Rat} {whole : Symbol → Rat} {g : CallGraph Rat}

/-- What a node is charged for some symbols, none of its component counting. -/
theorem amountOf_childTime (shown : HasTimes arcs times charge whole g)
    (sharing : IsSharing arcs times charge whole) (node : n ∈ g.nodes) (keys : Finset Symbol) :
    Tally.amountOf n.childTime (fun v => v ∈ keys) = ∑ v ∈ keys, charge n.symbol v := by
  refine Tally.amountOf_eq_sum (shown.childTime_nodup n node) ?_ ?_ ?_
  · exact fun e child => ((shown.mem_childTime n node e.1 e.2).1 child).2.2
  · intro e _ inside
    simpa using inside
  · intro v inside
    by_cases together : Together arcs n.symbol v
    · exact .inr (sharing.together n.symbol v together)
    · by_cases joins : Joins arcs n.symbol v
      · have child := (shown.mem_childTime n node v _).2 ⟨joins, together, rfl⟩
        exact .inl ⟨by simpa using inside, List.mem_map_of_mem child⟩
      · exact .inr (sharing.charge_of_not_joins joins)

theorem sum_childTime (shown : HasTimes arcs times charge whole g)
    (sharing : IsSharing arcs times charge whole) (node : n ∈ g.nodes) :
    (n.childTime.map (·.2)).sum = ∑ v ∈ symbols arcs, charge n.symbol v := by
  have every : ∀ e ∈ n.childTime, decide (e.1 ∈ symbols arcs) = true := fun e child =>
    decide_eq_true ((shown.mem_childTime n node e.1 e.2).1 child).1.mem_symbols.2
  rw [← shown.amountOf_childTime sharing node, Tally.amountOf, List.filter_eq_self.2 every]

theorem received_eq (shown : HasTimes arcs times charge whole g)
    (sharing : IsSharing arcs times charge whole) (c : Component Rat) :
    received g c = ∑ u ∈ symbols arcs \ c.members.toFinset, ∑ v ∈ c.members.toFinset,
      charge u v := by
  have each : ∀ n ∈ g.nodes.filter (fun n => n.symbol ∉ c.members),
      Tally.amountOf n.childTime (fun v => v ∈ c.members) =
        ∑ v ∈ c.members.toFinset, charge n.symbol v := by
    intro n listed
    have amount := shown.amountOf_childTime sharing (List.mem_of_mem_filter listed)
      c.members.toFinset
    simpa only [List.mem_toFinset] using amount
  have symbol : (g.nodes.filter fun n => n.symbol ∉ c.members).map
      (fun n => ∑ v ∈ c.members.toFinset, charge n.symbol v) =
        ((g.nodes.map (·.symbol)).filter fun u => u ∉ c.members).map
          fun u => ∑ v ∈ c.members.toFinset, charge u v := by
    simp [List.filter_map, Function.comp_def]
  rw [received, List.map_congr_left each, symbol,
    ← List.sum_toFinset _ (shown.symbols_nodup.sublist List.filter_sublist)]
  refine Finset.sum_congr ?_ fun _ _ => rfl
  ext u
  simp [← shown.mem_symbols]

end HasTimes

/-- The times of a call graph are the one solution of the equations of sharing out, and what
    a component is due that any call enters is all charged to its callers outside. -/
theorem times_share_out (arcs : List Arc) (times : Symbol → Int) :
    ∃ g : CallGraph Rat, ofArcs arcs times = .ok g ∧
      ∃ charge whole, IsSharing arcs times charge whole ∧ HasTimes arcs times charge whole g ∧
        (∀ charge' whole', IsSharing arcs times charge' whole' →
          (∀ u v, charge' u v = charge u v) ∧ ∀ s ∈ symbols arcs, whole' s = whole s) ∧
        ∀ c ∈ g.components, 0 < c.callsIn → received g c = c.cumulative := by
  obtain ⟨components, charged, graph⟩ := ofArcs_exact arcs times
  refine ⟨_, graph, _, _, charged.isSharing, charged.hasTimes, ?_, ?_⟩
  · intro charge' whole' sharing
    exact ⟨sharing.charge_unique charged.isSharing, fun s => sharing.whole_unique charged.isSharing⟩
  · intro c member entered
    obtain ⟨s, inside⟩ := List.exists_mem_of_ne_nil _ (charged.members_ne_nil member)
    have total := charged.isSharing.sum_charges (charged.mem_symbols member inside)
    rw [charged.componentOf_eq member inside, ← charged.callsIn_eq member, if_neg entered.ne',
      charged.wholeIn_eq member inside] at total
    rw [charged.hasTimes.received_eq charged.isSharing, total]

end CallProfile.CallGraph
