import CallProfile.Proofs.Propagation
import Mathlib.Algebra.Order.BigOperators.Group.Finset
import Mathlib.Algebra.Order.BigOperators.Group.List
import Mathlib.Algebra.Order.Field.Basic
import Mathlib.Tactic.Linarith

/-! # Bounds of cumulative times

A cumulative time lies between the own time and the own times of everything that is reached.
The upper bound is not local: a callee may be reached in many ways. It holds because a set of
symbols that calls nothing outside itself charges no more than its components have.
-/

namespace CallProfile.Arc

variable {arcs : List Arc} {times : Symbol → Int} {s t u v : Symbol} {inner : Finset Symbol}

open Classical in
/-- All symbols that some symbols reach, these with them. -/
noncomputable def reachable (arcs : List Arc) (roots : Finset Symbol) : Finset Symbol :=
  (symbols arcs).filter fun t => ∃ s ∈ roots, Reaches arcs s t

theorem mem_reachable {roots : Finset Symbol} :
    t ∈ reachable arcs roots ↔ t ∈ symbols arcs ∧ ∃ s ∈ roots, Reaches arcs s t := by
  simp [reachable]

theorem reachable_subset (arcs : List Arc) (roots : Finset Symbol) :
    reachable arcs roots ⊆ symbols arcs :=
  fun _ member => (mem_reachable.1 member).1

theorem mem_reachable_singleton :
    t ∈ reachable arcs {s} ↔ t ∈ symbols arcs ∧ Reaches arcs s t := by
  simp [mem_reachable]

theorem reachable_eq {roots : Finset Symbol} (member : s ∈ roots)
    (together : ∀ t ∈ roots, Together arcs s t) : reachable arcs roots = reachable arcs {s} := by
  ext t
  rw [mem_reachable, mem_reachable_singleton]
  refine and_congr_right fun _ => ⟨?_, fun path => ⟨s, member, path⟩⟩
  rintro ⟨u, root, path⟩
  exact (together u root).1.trans path

/-- The own time of a symbol with what it is charged. -/
def chargedTime (arcs : List Arc) (times : Symbol → Int) (charge : Symbol → Symbol → Rat)
    (u : Symbol) : Rat :=
  times u + ∑ v ∈ symbols arcs, charge u v

theorem sum_le_sum_of_components {f g : Symbol → Rat} (inside : inner ⊆ symbols arcs)
    (closed : ∀ s ∈ inner, componentOf arcs s ⊆ inner)
    (le : ∀ s ∈ inner, ∑ t ∈ componentOf arcs s, f t ≤ ∑ t ∈ componentOf arcs s, g t) :
    ∑ s ∈ inner, f s ≤ ∑ s ∈ inner, g s := by
  induction inner using Finset.strongInduction with
  | H inner ih =>
    rcases inner.eq_empty_or_nonempty with rfl | ⟨s, member⟩
    · simp
    · have own : s ∈ componentOf arcs s :=
        mem_componentOf.2 ⟨inside member, .refl arcs s⟩
      have smaller : inner \ componentOf arcs s ⊂ inner :=
        Finset.sdiff_ssubset (closed s member) ⟨s, own⟩
      have rest : ∀ t ∈ inner \ componentOf arcs s,
          componentOf arcs t ⊆ inner \ componentOf arcs s := by
        intro t other u together
        rw [Finset.mem_sdiff] at other ⊢
        refine ⟨closed t other.1 together, fun back => other.2 ?_⟩
        have path := (mem_componentOf.1 back).2.trans (mem_componentOf.1 together).2.symm
        exact mem_componentOf.2 ⟨inside other.1, path⟩
      rw [← Finset.sum_sdiff (closed s member), ← Finset.sum_sdiff (closed s member)]
      refine add_le_add (ih _ smaller (Finset.sdiff_subset.trans inside) rest fun t other => ?_)
        (le s member)
      exact le t (Finset.mem_sdiff.1 other).1

namespace IsSharing

variable {charge : Symbol → Symbol → Rat} {whole : Symbol → Rat}

theorem whole_eq_sum (sharing : IsSharing arcs times charge whole) (inside : s ∈ symbols arcs) :
    whole s = ∑ u ∈ componentOf arcs s, chargedTime arcs times charge u :=
  sharing.whole_eq s inside

theorem charge_nonneg_of (sharing : IsSharing arcs times charge whole)
    (nonneg : Joins arcs u v → ¬ Together arcs u v → 0 ≤ whole v) : 0 ≤ charge u v := by
  by_cases together : Together arcs u v
  · rw [sharing.together u v together]
  · by_cases joins : Joins arcs u v
    · have time := nonneg joins together
      rw [sharing.apart u v together]
      split
      · exact le_rfl
      · positivity
    · rw [sharing.charge_of_not_joins joins]

section Nonneg

variable (sharing : IsSharing arcs times charge whole) (own : ∀ s, 0 ≤ times s)
include sharing own

theorem whole_nonneg : ∀ s ∈ symbols arcs, 0 ≤ whole s := by
  refine callees_induction fun s inside callees => ?_
  rw [sharing.whole_eq s inside]
  refine Finset.sum_nonneg fun u member => ?_
  have charged : ∀ v ∈ symbols arcs, 0 ≤ charge u v := fun v _ =>
    sharing.charge_nonneg_of (callees u v (mem_componentOf.1 member).2)
  exact add_nonneg (by exact_mod_cast own u) (Finset.sum_nonneg charged)

theorem charge_nonneg (u v : Symbol) : 0 ≤ charge u v :=
  sharing.charge_nonneg_of fun joins _ => sharing.whole_nonneg own v joins.mem_symbols.2

theorem times_le_chargedTime (s : Symbol) : (times s : Rat) ≤ chargedTime arcs times charge s :=
  le_add_of_nonneg_right (Finset.sum_nonneg fun v _ => sharing.charge_nonneg own s v)

theorem chargedTime_nonneg (s : Symbol) : 0 ≤ chargedTime arcs times charge s :=
  le_trans (by exact_mod_cast own s) (sharing.times_le_chargedTime own s)

theorem chargedTime_le_whole (inside : s ∈ symbols arcs) :
    chargedTime arcs times charge s ≤ whole s := by
  rw [sharing.whole_eq_sum inside]
  exact Finset.single_le_sum (fun u _ => sharing.chargedTime_nonneg own u)
    (mem_componentOf.2 ⟨inside, .refl arcs s⟩)

theorem sum_times_le_whole (inside : s ∈ symbols arcs) :
    ∑ u ∈ componentOf arcs s, (times u : Rat) ≤ whole s := by
  rw [sharing.whole_eq_sum inside]
  exact Finset.sum_le_sum fun u _ => sharing.times_le_chargedTime own u

/-- Components are charged to others no more than they have. -/
theorem sum_charges_le (inside : inner ⊆ symbols arcs)
    (closed : ∀ s ∈ inner, componentOf arcs s ⊆ inner) :
    ∑ v ∈ inner, ∑ u ∈ symbols arcs, charge u v ≤
      ∑ v ∈ inner, chargedTime arcs times charge v := by
  refine sum_le_sum_of_components inside closed fun s member => ?_
  rw [sharing.sum_all_charges (inside member), ← sharing.whole_eq_sum (inside member)]
  split
  · exact sharing.whole_nonneg own s (inside member)
  · exact le_rfl

omit own in
theorem charge_of_reached (path : Reaches arcs s u) (together : Together arcs s v) :
    charge u v = 0 := by
  by_cases joins : Joins arcs u v
  · refine sharing.together u v ⟨.single joins, ?_⟩
    exact together.2.trans path
  · exact sharing.charge_of_not_joins joins

omit own in
theorem sum_charges_of_reached (u : Symbol) (path : Reaches arcs s u) :
    ∑ v ∈ symbols arcs, charge u v = ∑ v ∈ reachable arcs {s}, charge u v := by
  refine (Finset.sum_subset (reachable_subset arcs {s}) fun v inside apart => ?_).symm
  refine sharing.charge_of_not_joins fun joins => apart ?_
  exact mem_reachable_singleton.2 ⟨inside, path.tail joins⟩

theorem whole_le (inside : s ∈ symbols arcs) :
    whole s ≤ ∑ t ∈ reachable arcs {s}, (times t : Rat) := by
  have within := reachable_subset arcs {s}
  have component : componentOf arcs s ⊆ reachable arcs {s} := fun t member =>
    mem_reachable_singleton.2 ⟨(mem_componentOf.1 member).1, (mem_componentOf.1 member).2.1⟩
  have path : ∀ {u}, u ∈ reachable arcs {s} → Reaches arcs s u := fun member =>
    (mem_reachable_singleton.1 member).2
  -- The times of all components that are reached, counted by symbols and by charges.
  have total : ∑ u ∈ reachable arcs {s}, chargedTime arcs times charge u =
      ∑ u ∈ reachable arcs {s}, (times u : Rat) +
        ∑ v ∈ reachable arcs {s}, ∑ u ∈ reachable arcs {s}, charge u v := by
    rw [Finset.sum_comm, ← Finset.sum_add_distrib]
    refine Finset.sum_congr rfl fun u member => ?_
    rw [chargedTime, sharing.sum_charges_of_reached u (path member)]
  have parts : ∑ u ∈ reachable arcs {s}, chargedTime arcs times charge u =
      ∑ u ∈ reachable arcs {s} \ componentOf arcs s, chargedTime arcs times charge u + whole s := by
    rw [sharing.whole_eq_sum inside, Finset.sum_sdiff component]
  have others : ∑ v ∈ reachable arcs {s}, ∑ u ∈ reachable arcs {s}, charge u v =
      ∑ v ∈ reachable arcs {s} \ componentOf arcs s, ∑ u ∈ reachable arcs {s}, charge u v := by
    refine (Finset.sum_subset Finset.sdiff_subset fun v member inner => ?_).symm
    have together : v ∈ componentOf arcs s := by simpa [member] using inner
    exact Finset.sum_eq_zero fun u reached =>
      sharing.charge_of_reached (path reached) (mem_componentOf.1 together).2
  have wider : ∑ v ∈ reachable arcs {s} \ componentOf arcs s, ∑ u ∈ reachable arcs {s}, charge u v ≤
      ∑ v ∈ reachable arcs {s} \ componentOf arcs s, ∑ u ∈ symbols arcs, charge u v :=
    Finset.sum_le_sum fun v _ =>
      Finset.sum_le_sum_of_subset_of_nonneg within fun u _ _ => sharing.charge_nonneg own u v
  have closed : ∀ t ∈ reachable arcs {s} \ componentOf arcs s,
      componentOf arcs t ⊆ reachable arcs {s} \ componentOf arcs s := by
    intro t member u together
    rw [Finset.mem_sdiff] at member ⊢
    obtain ⟨present, both⟩ := mem_componentOf.1 together
    refine ⟨mem_reachable_singleton.2 ⟨present, (path member.1).trans both.1⟩, fun back => ?_⟩
    exact member.2 (mem_componentOf.2 ⟨within member.1, (mem_componentOf.1 back).2.trans both.symm⟩)
  have bound := sharing.sum_charges_le own (Finset.sdiff_subset.trans within) closed
  linarith

end Nonneg

end IsSharing

end CallProfile.Arc

namespace CallProfile.CallGraph

open scoped Whole

open Arc

variable {arcs : List Arc} {times : Symbol → Int} {charge : Symbol → Symbol → Rat}
  {whole : Symbol → Rat} {g : CallGraph Rat} {n : CallNode Rat}
  {components : List (Component Rat)} {c : Cycle Rat}

namespace HasTimes

theorem mem_symbols_of_node (shown : HasTimes arcs times charge whole g) (node : n ∈ g.nodes) :
    n.symbol ∈ symbols arcs :=
  (shown.mem_symbols n.symbol).1 (List.mem_map_of_mem node)

/-- A node has the time of its symbol or, as the head of a cycle, that of its component. -/
theorem cumulative_cases (shown : HasTimes arcs times charge whole g)
    (sharing : IsSharing arcs times charge whole) (node : n ∈ g.nodes) :
    n.cumulative.toTime = chargedTime arcs times charge n.symbol ∨
      n.cumulative.toTime = whole n.symbol := by
  by_cases head : ∃ c ∈ g.cycles, c.head = n.symbol
  · obtain ⟨c, member, same⟩ := head
    obtain ⟨time, cycle⟩ := shown.head c member n node same
    exact .inr (time.trans cycle)
  · have time := shown.own n node fun c member same => head ⟨c, member, same⟩
    rw [shown.sum_childTime sharing node, shown.selfTime_eq n node] at time
    exact .inl time

theorem cumulative_bounds (shown : HasTimes arcs times charge whole g)
    (sharing : IsSharing arcs times charge whole) (own : ∀ s, 0 ≤ times s) (node : n ∈ g.nodes) :
    (n.selfTime : Rat) ≤ n.cumulative.toTime ∧ n.cumulative.toTime ≤ whole n.symbol := by
  have lower := sharing.times_le_chargedTime own n.symbol
  have upper := sharing.chargedTime_le_whole own (shown.mem_symbols_of_node node)
  rw [shown.selfTime_eq n node]
  rcases shown.cumulative_cases sharing node with time | time
  · rw [time]
    exact ⟨lower, upper⟩
  · rw [time]
    exact ⟨lower.trans upper, le_rfl⟩

end HasTimes

namespace IsCharged

theorem cycle_component (charged : IsCharged arcs times components)
    (member : c ∈ cyclesIn arcs times components) {s : Symbol} (inside : s ∈ c.members) :
    s ∈ symbols arcs ∧ componentOf arcs s = c.members.toFinset ∧
      c.cumulative = wholeIn components s := by
  obtain ⟨d, listed, k, made⟩ := component_of_mem_cyclesIn member
  have here := (mem_of_cycle made).1 inside
  refine ⟨charged.mem_symbols listed here, ?_, charged.cumulative_of_cycle member inside⟩
  rw [charged.componentOf_eq listed here, toFinset_of_cycle made]

/-- A cycle has the own times of its members and no more than those of all that it reaches. -/
theorem cycle_bounds (charged : IsCharged arcs times components) (own : ∀ s, 0 ≤ times s)
    (member : c ∈ cyclesIn arcs times components) :
    (c.selfTime : Rat) ≤ c.cumulative ∧
      c.cumulative ≤ ∑ t ∈ reachable arcs c.members.toFinset, (times t : Rat) := by
  have inside := charged.head_mem member
  obtain ⟨present, component, time⟩ := charged.cycle_component member inside
  have together : ∀ t ∈ c.members.toFinset, Together arcs c.head t := by
    intro t listed
    rw [← component] at listed
    exact (mem_componentOf.1 listed).2
  have selfTime : (c.selfTime : Rat) = ∑ t ∈ componentOf arcs c.head, (times t : Rat) := by
    rw [charged.selfTime_eq member, component,
      List.sum_toFinset _ (charged.members_nodup_of_cycle member), Int.cast_list_sum, List.map_map]
    rfl
  rw [selfTime, time, reachable_eq (List.mem_toFinset.2 inside) together]
  exact ⟨charged.isSharing.sum_times_le_whole own present,
    charged.isSharing.whole_le own present⟩

end IsCharged

theorem sum_count_le_total (samples : Tally Symbol Nat) (members : Finset Symbol) :
    ∑ t ∈ members, samples.count t ≤ samples.total := by
  have all : ∀ k ∈ samples.keys, samples.count k ≠ 0 → k ∈ samples.keys.toFinset ∪ members :=
    fun k present _ => Finset.mem_union_left members (List.mem_toFinset.2 present)
  rw [samples.total_eq_sum all]
  exact Finset.sum_le_sum_of_subset Finset.subset_union_right

/-- With exact fractions a node has at least its own samples, and no more than all that it
    reaches have of their own; so has a cycle. None has more than all samples together. -/
theorem cumulative_within_reach (arcs : List Arc) (samples : Tally Symbol Nat) :
    ∃ g : CallGraph Rat, ofArcs arcs (fun s => samples.count s) = .ok g ∧
      HasCycles arcs (fun s => samples.count s) g ∧
      (∀ n ∈ g.nodes, n.selfTime = samples.count n.symbol ∧
        (n.selfTime : Rat) ≤ n.cumulative.toTime ∧
        n.cumulative.toTime ≤ ↑(∑ t ∈ reachable arcs {n.symbol}, samples.count t) ∧
        n.cumulative.toTime ≤ samples.total) ∧
      ∀ c ∈ g.cycles, (c.selfTime : Rat) ≤ c.cumulative ∧
        c.cumulative ≤ ↑(∑ t ∈ reachable arcs c.members.toFinset, samples.count t) ∧
        c.cumulative ≤ samples.total := by
  have own : ∀ s, (0 : Int) ≤ samples.count s := fun s => Int.natCast_nonneg (samples.count s)
  obtain ⟨components, charged, graph⟩ := ofArcs_exact arcs fun s => samples.count s
  have shown := charged.hasTimes
  -- The bound by reach is the bound by all samples, as these are no fewer.
  have bounded : ∀ {roots : Finset Symbol} {x : Rat},
      x ≤ ∑ t ∈ reachable arcs roots, ((samples.count t : Int) : Rat) →
        x ≤ ↑(∑ t ∈ reachable arcs roots, samples.count t) ∧ x ≤ samples.total := by
    intro roots x bound
    have total := sum_count_le_total samples (reachable arcs roots)
    have reach : x ≤ ↑(∑ t ∈ reachable arcs roots, samples.count t) := by
      simpa only [Nat.cast_sum, Int.cast_natCast] using bound
    exact ⟨reach, reach.trans (Nat.cast_le.2 total)⟩
  refine ⟨_, graph, charged.hasCycles, fun n node => ?_, fun c member => ?_⟩
  · obtain ⟨lower, upper⟩ := shown.cumulative_bounds charged.isSharing own node
    have reach := charged.isSharing.whole_le own (shown.mem_symbols_of_node node)
    exact ⟨shown.selfTime_eq n node, lower, bounded (upper.trans reach)⟩
  · obtain ⟨lower, upper⟩ := charged.cycle_bounds own member
    exact ⟨lower, bounded upper⟩

end CallProfile.CallGraph
