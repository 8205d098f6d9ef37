import CallProfile.Proofs.Exact
import Mathlib.Data.List.Induction

/-! # Heads of cycles

With exact fractions any two members of a cycle compare, so one of them has the most time,
and of those that have as much the head has the lowest start.
-/

namespace CallProfile

namespace CallNode

/-- What a member of a cycle has for its samples, counted twice, and its callees outside. -/
def weight (n : CallNode Rat) : Rat :=
  n.selfTime + (n.selfTime + (n.childTime.map (·.2)).sum)

/-- Whether a node stands before another as the head: it has more, or as much and a start
    that is not higher. -/
def Leads (a b : CallNode Rat) : Prop :=
  b.weight < a.weight ∨ b.weight = a.weight ∧ a.symbol.start ≤ b.symbol.start

namespace Leads

theorem refl (a : CallNode Rat) : Leads a a :=
  .inr ⟨rfl, le_rfl⟩

theorem trans {a b c : CallNode Rat} (first : Leads a b) (second : Leads b c) : Leads a c := by
  rcases first with less | ⟨same, start⟩
  · rcases second with less' | ⟨same', _⟩
    · exact .inl (less'.trans less)
    · exact .inl (same' ▸ less)
  · rcases second with less' | ⟨same', start'⟩
    · exact .inl (same ▸ less')
    · exact .inr ⟨same'.trans same, start.trans start'⟩

end Leads

end CallNode

namespace CallGraph

open CallNode

theorem leads_of_isBetterHead {a b : CallNode Rat} (own : a.HasOwnTime) (own' : b.HasOwnTime) :
    if isBetterHead a b = true then a.Leads b else b.Leads a := by
  have order := Amount.order?_exact (a.cumulative.addTo a.selfTime) (b.cumulative.addTo b.selfTime)
  rw [Amount.toTime_addTo, Amount.toTime_addTo, own, own'] at order
  unfold isBetterHead
  rw [order]
  rcases lt_trichotomy a.weight b.weight with less | same | more
  · have lt := less
    unfold weight at lt
    simp only [lt, if_true]
    exact .inl less
  · have eq := same
    unfold weight at eq
    simp only [eq, lt_irrefl, if_true, if_false, decide_eq_true_eq]
    split
    · next start => exact .inr ⟨same.symm, start.le⟩
    · next start => exact .inr ⟨same, not_lt.1 start⟩
  · have gt := more
    unfold weight at gt
    simp only [gt.not_gt, gt.ne', if_true, if_false]
    exact .inl more

theorem foldl_mem {α : Type} [Times α] (best : CallNode α) (nodes : List (CallNode α)) :
    nodes.foldl (fun best n => if isBetterHead n best then n else best) best ∈ best :: nodes := by
  induction nodes generalizing best with
  | nil => simp
  | cons n nodes ih =>
      rw [List.foldl_cons]
      have member := ih (if isBetterHead n best then n else best)
      split at member
      · next better => simp only [better, if_true, List.mem_cons_of_mem _ member]
      · next worse =>
          simp only [worse]
          rcases List.mem_cons.1 member with same | later
          · exact List.mem_cons.2 (.inl same)
          · exact List.mem_cons_of_mem _ (List.mem_cons_of_mem _ later)

theorem foldl_leads (best : CallNode Rat) (nodes : List (CallNode Rat))
    (own : ∀ n ∈ best :: nodes, n.HasOwnTime) : ∀ n ∈ best :: nodes,
      (nodes.foldl (fun best n => if isBetterHead n best then n else best) best).Leads n := by
  induction nodes generalizing best with
  | nil => simpa using Leads.refl best
  | cons m nodes ih =>
      have duel := leads_of_isBetterHead (own m (by simp)) (own best (by simp))
      rw [List.foldl_cons]
      split at duel
      -- Whichever of the two goes on, it stands before the other one.
      · next better =>
          simp only [better, if_true]
          have rest := ih m fun n member => own n (List.mem_cons_of_mem _ member)
          intro n member
          rcases List.mem_cons.1 member with rfl | later
          · exact (rest m (by simp)).trans duel
          · exact rest n later
      · next worse =>
          simp only [worse]
          have rest := ih best fun n member => own n (by grind)
          intro n member
          rcases List.mem_cons.1 member with rfl | later
          · exact rest n (by simp)
          · rcases List.mem_cons.1 later with rfl | last
            · exact (rest best (by simp)).trans duel
            · exact rest n (List.mem_cons_of_mem _ last)

theorem headOf_mem {α : Type} [Times α] {nodes : List (CallNode α)} {head : CallNode α}
    (found : headOf nodes = some head) : head ∈ nodes := by
  cases nodes with
  | nil => cases found
  | cons n nodes =>
      cases found
      exact foldl_mem n nodes

/-- With exact fractions no node of a cycle stands before its head. -/
theorem headOf_leads {nodes : List (CallNode Rat)} {head : CallNode Rat}
    (own : ∀ n ∈ nodes, n.HasOwnTime) (found : headOf nodes = some head) :
    ∀ n ∈ nodes, head.Leads n := by
  cases nodes with
  | nil => cases found
  | cons n nodes =>
      cases found
      exact foldl_leads n nodes own

end CallGraph

end CallProfile
