import CallProfile.Proofs.Cycles
import CallProfile.Proofs.Doubles
import CallProfile.Proofs.Tally
import Mathlib.Algebra.Order.BigOperators.Group.List

/-! # Call graphs of moderate numbers

Where the samples and the calls of a profile are moderate numbers, every time of its call graph can
be represented.
-/

namespace CallProfile

open scoped Whole

theorem Moderate.mono {n m : Int} (moderate : Moderate m) (nonneg : 0 ≤ n) (le : n ≤ m) :
    Moderate n := by
  have below : n.natAbs ≤ m.natAbs := by omega
  exact lt_of_le_of_lt below moderate

namespace Tally

variable {κ : Type} {t : Tally κ Nat}

theorem le_total {e : κ × Nat} (member : e ∈ t.entries) : e.2 ≤ t.total :=
  List.le_sum_of_mem (List.mem_map_of_mem member)

end Tally

namespace CallGraph

open Arc Rounded

variable {arcs : List Arc} {times : Symbol → Int} {components before : List (Component Rounded)}
  {c : Component Rounded} {s : Symbol}

/-- Whether the calls of arcs and the samples of symbols are moderate, all of them together. -/
structure ModerateCalls (arcs : List Arc) (times : Symbol → Int) : Prop where
  calls : Moderate (merge arcs).total
  samples : ∀ members : List Symbol, members.Nodup → Moderate (selfTimeOf times members)

/-- Whether all numbers of a component can be represented. -/
structure ComponentFits (c : Component Rounded) : Prop where
  cumulative : c.cumulative.Fits
  callsIn : Moderate c.callsIn

theorem ComponentFits.share (fits : ComponentFits c) {calls : Nat} (moderate : Moderate calls) :
    (Component.share c calls).Fits := by
  rw [Component.share]
  split
  · exact fits_zero
  · exact fits_part fits.cumulative moderate fits.callsIn

namespace IsCharged

end IsCharged

/-! ## Nodes and cycles -/

theorem ModerateCalls.own (moderate : ModerateCalls arcs times) (s : Symbol) :
    Moderate (times s) := by
  have alone := moderate.samples [s] (List.nodup_singleton s)
  rwa [selfTimeOf, List.map_singleton, List.sum_singleton] at alone

/-- Whether all numbers of a node can be represented. -/
structure NodeFits (n : CallNode Rounded) : Prop where
  cumulative : n.cumulative.Fits
  childTime : ∀ e ∈ n.childTime, e.2.Fits

/-- Whether all numbers of a call graph can be represented. -/
structure GraphFits (g : CallGraph Rounded) : Prop where
  components : ∀ c ∈ g.components, ComponentFits c
  nodes : ∀ n ∈ g.nodes, NodeFits n
  cycles : ∀ c ∈ g.cycles, c.cumulative.Fits

theorem GraphFits.fits {g : CallGraph Rounded} (graph : GraphFits g) : g.fits = true := by
  rw [CallGraph.fits, Bool.and_eq_true, List.all_eq_true, List.all_eq_true]
  refine ⟨fun c member => (graph.components c member).cumulative, fun n member => ?_⟩
  rw [Bool.and_eq_true, List.all_eq_true]
  exact ⟨(graph.nodes n member).cumulative.fits, (graph.nodes n member).childTime⟩

end CallGraph

end CallProfile
