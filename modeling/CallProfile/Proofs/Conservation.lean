import CallProfile.Proofs.Propagation

/-! # Conservation of time

Every component passes its time on to its callers, apart from those that no call enters. So
these have among them the own times of all symbols.
-/

namespace CallProfile.CallGraph

open Arc

variable {arcs : List Arc} {times : Symbol → Int} {charge : Symbol → Symbol → Rat}
  {whole : Symbol → Rat} {g : CallGraph Rat} {c : Component Rat}

namespace HasTimes

theorem exists_member (shown : HasTimes arcs times charge whole g) (member : c ∈ g.components) :
    ∃ s ∈ symbols arcs, componentOf arcs s = c.members.toFinset ∧ c.cumulative = whole s := by
  have listed : c.members ∈ g.components.map (·.members) := List.mem_map_of_mem member
  obtain ⟨s, inside⟩ := List.exists_mem_of_ne_nil _ (shown.division.nonempty _ listed)
  exact ⟨s, shown.division.mem_symbols listed inside, shown.division.componentOf_eq listed inside,
    shown.cumulative_eq c member s inside⟩

theorem sum_components (shown : HasTimes arcs times charge whole g) (f : Symbol → Rat) :
    (g.components.map fun c => ∑ s ∈ c.members.toFinset, f s).sum = ∑ s ∈ symbols arcs, f s := by
  have all := shown.division.sum_eq f
  rwa [List.map_map] at all

/-- The components together have all own times and all that is charged. -/
theorem sum_cumulative (shown : HasTimes arcs times charge whole g)
    (sharing : IsSharing arcs times charge whole) :
    (g.components.map (·.cumulative)).sum = (∑ s ∈ symbols arcs, (times s : Rat)) +
      ∑ u ∈ symbols arcs, ∑ v ∈ symbols arcs, charge u v := by
  have each : ∀ c ∈ g.components, c.cumulative =
      ∑ u ∈ c.members.toFinset, (times u + ∑ v ∈ symbols arcs, charge u v) := by
    intro c member
    obtain ⟨s, inside, component, time⟩ := shown.exists_member member
    rw [time, sharing.whole_eq s inside, component]
  rw [List.map_congr_left each, shown.sum_components, Finset.sum_add_distrib]

/-- What is charged is the time of the components that calls enter. -/
theorem sum_charged (shown : HasTimes arcs times charge whole g)
    (sharing : IsSharing arcs times charge whole) :
    ∑ u ∈ symbols arcs, ∑ v ∈ symbols arcs, charge u v =
      ((g.components.filter fun c => ¬ c.callsIn = 0).map (·.cumulative)).sum := by
  have each : ∀ c ∈ g.components, ∑ v ∈ c.members.toFinset, ∑ u ∈ symbols arcs, charge u v =
      if c.callsIn = 0 then 0 else c.cumulative := by
    intro c member
    obtain ⟨s, inside, component, time⟩ := shown.exists_member member
    have charged := sharing.sum_all_charges inside
    rwa [component, ← shown.callsIn_eq c member, ← time] at charged
  rw [Finset.sum_comm, ← shown.sum_components, List.map_congr_left each, List.sum_map_ite,
    List.map_const', List.sum_replicate, nsmul_zero, zero_add]

theorem conserved (shown : HasTimes arcs times charge whole g)
    (sharing : IsSharing arcs times charge whole) :
    ((g.components.filter fun c => c.callsIn = 0).map (·.cumulative)).sum =
      ∑ s ∈ symbols arcs, (times s : Rat) := by
  have total := List.sum_map_filter_add_sum_map_filter_not (fun c : Component Rat => c.callsIn = 0)
    (·.cumulative) g.components
  rw [shown.sum_cumulative sharing, shown.sum_charged sharing] at total
  exact add_right_cancel total

theorem sum_selfTime (shown : HasTimes arcs times charge whole g) :
    (g.nodes.map fun n => (n.selfTime : Rat)).sum = ∑ s ∈ symbols arcs, (times s : Rat) := by
  have each : ∀ n ∈ g.nodes, (n.selfTime : Rat) = ((fun s => (times s : Rat)) ∘ (·.symbol)) n := by
    intro n member
    rw [shown.selfTime_eq n member]
    rfl
  have same : (g.nodes.map (·.symbol)).toFinset = symbols arcs := by
    ext s
    rw [List.mem_toFinset, shown.mem_symbols]
  rw [List.map_congr_left each, ← List.map_map, ← List.sum_toFinset _ shown.symbols_nodup, same]

end HasTimes

/-- The components that no call enters have, with exact fractions, the own times of all nodes. -/
theorem time_conserved (arcs : List Arc) (times : Symbol → Int) :
    ∃ g : CallGraph Rat, ofArcs arcs times = .ok g ∧
      IsDivision arcs (g.components.map (·.members)) ∧
      (∀ c ∈ g.components, c.callsIn = entering arcs c.members.toFinset) ∧
      ((g.components.filter fun c => c.callsIn = 0).map (·.cumulative)).sum =
        (g.nodes.map fun n => (n.selfTime : Rat)).sum ∧
      (g.nodes.map fun n => (n.selfTime : Rat)).sum = ∑ s ∈ symbols arcs, (times s : Rat) := by
  obtain ⟨components, charged, graph⟩ := ofArcs_exact arcs times
  have shown := charged.hasTimes
  exact ⟨_, graph, shown.division, shown.callsIn_eq,
    (shown.conserved charged.isSharing).trans shown.sum_selfTime.symm, shown.sum_selfTime⟩

end CallProfile.CallGraph
