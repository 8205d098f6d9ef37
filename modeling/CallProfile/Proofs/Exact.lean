import CallProfile.Proofs.Charging
import CallProfile.Times.Exact
import CallProfile.Tree.Build
import Mathlib.Algebra.BigOperators.Group.List.Basic
import Mathlib.Algebra.Order.Ring.Cast
import Mathlib.Algebra.Order.Ring.Rat
import Mathlib.Data.Int.Cast.Lemmas

/-! # Charging with exact fractions

Exact fractions represent every number, so every list of arcs has a call graph, and a tree. Its
times are sums and quotients of rational numbers.
-/

namespace CallProfile

namespace Times

theorem ofInt_exact (n : Int) : (Times.ofInt n : Rat) = n :=
  rfl

theorem foldl_add_exact (x : Rat) (xs : List Rat) : xs.foldl Times.add x = x + xs.sum := by
  induction xs generalizing x with
  | nil => exact (add_zero x).symm
  | cons y xs ih =>
      rw [List.foldl_cons, ih, List.sum_cons, ← add_assoc]
      rfl

theorem sum_exact (xs : List Rat) : Times.sum xs = xs.sum :=
  (foldl_add_exact 0 xs).trans (zero_add xs.sum)

end Times

namespace Amount

theorem toTime_addTo (n : Int) (a : Amount Rat) : (a.addTo n).toTime = n + a.toTime := by
  cases a with
  | whole m => exact Int.cast_add n m
  | time x => rfl

theorem order?_exact (a b : Amount Rat) :
    order? a b = some (if a.toTime < b.toTime then .lt
      else if a.toTime = b.toTime then .eq else .gt) := by
  cases a with
  | whole n =>
      cases b with
      | whole m =>
          simp only [order?, toTime, Times.ofInt, Int.cast_lt, Int.cast_inj]
          rfl
      | time y =>
          simp only [order?, toTime, Times.ofInt, Times.orderInt?, Option.map_some]
          rcases lt_trichotomy (n : Rat) y with less | same | more
          · simp [less, less.ne', less.not_gt]
          · simp [same]
          · simp [more, more.not_gt, more.ne']
  | time x => cases b <;> rfl

end Amount

namespace CallNode

/-- Whether the amount of a node is its own: its samples and what it is charged. -/
def HasOwnTime (n : CallNode Rat) : Prop :=
  n.cumulative.toTime = n.selfTime + (n.childTime.map (·.2)).sum

end CallNode

namespace CallGraph

open Arc CallNode

theorem hasOwnTime_nodeOf (arcs : ArcTally) (times : Symbol → Int)
    (components : List (Component Rat)) (s : Symbol) :
    (nodeOf arcs times components s).HasOwnTime := by
  unfold HasOwnTime nodeOf
  dsimp only
  split
  · next empty => simp [List.isEmpty_iff.1 empty, Amount.toTime, Times.ofInt]
  · rw [← Times.sum_exact]
    rfl

theorem fits_exact (g : CallGraph Rat) : g.fits = true := by
  have node : ∀ n ∈ g.nodes, (n.cumulative.fits && n.childTime.all fun c => Times.fits c.2) =
      true := by
    intro n _
    cases n.cumulative <;> simp [Amount.fits, Times.fits]
  have component : ∀ c ∈ g.components, Times.fits c.cumulative = true := fun _ _ => rfl
  rw [fits, List.all_eq_true.2 component, List.all_eq_true.2 node]
  rfl

theorem ofArcs_exact (arcs : List Arc) (times : Symbol → Int) :
    ∃ components : List (Component Rat), IsCharged arcs times components ∧
      ofArcs arcs times = .ok (ofComponents (merge arcs) times components) := by
  obtain ⟨components, charged, graph⟩ := ofArcs_eq (α := Rat) arcs times
  rw [fits_exact, if_pos rfl] at graph
  exact ⟨components, charged, graph⟩

end CallGraph

theorem TreeNode.fits_exact (n : TreeNode Rat) : n.fits = true := by
  rw [fits]
  cases n.cumulative <;> rfl

theorem Tree.build_exact (p : Samples) (graph : Option (CallGraph Rat)) :
    build p graph = .ok (assemble p graph) :=
  if_pos (List.all_eq_true.2 fun n _ => n.fits_exact)

end CallProfile
