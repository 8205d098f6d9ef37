import Mathlib.Data.List.Induction
import Mathlib.Data.List.Nodup

/-! # Lists without repetitions

Facts about lists whose elements are found by a property that one element alone has, and about
groups by keys that are listed once.
-/

namespace CallProfile

variable {α : Type}

theorem nodup_eraseDups [BEq α] [LawfulBEq α] (xs : List α) : xs.eraseDups.Nodup := by
  cases xs with
  | nil => exact .nil
  | cons x xs =>
      rw [List.eraseDups_cons, List.nodup_cons, List.mem_eraseDups]
      exact ⟨by simp, nodup_eraseDups (xs.filter fun y => !y == x)⟩
termination_by xs.length
decreasing_by
  have shorter := xs.length_filter_le fun y => !y == x
  simp only [List.length_cons]
  omega

/-- The first element with a property, when no other element has it. -/
theorem find?_of_unique {p : α → Bool} {xs : List α} {x : α} (member : x ∈ xs)
    (holds : p x = true) (unique : ∀ y ∈ xs, p y = true → y = x) : xs.find? p = some x := by
  cases found : xs.find? p with
  | none => exact absurd holds (List.find?_eq_none.1 found x member)
  | some y => rw [unique y (List.mem_of_find?_eq_some found) (List.find?_some found)]

/-- The place of an element with a property, when no other element has it. -/
theorem findIdx_of_unique {p : α → Bool} {xs : List α} {x : α} {i : Nat}
    (place : xs[i]? = some x) (holds : p x = true)
    (unique : ∀ j y, xs[j]? = some y → p y = true → j = i) : xs.findIdx p = i := by
  obtain ⟨below, rfl⟩ := List.getElem?_eq_some_iff.1 place
  have found : xs.findIdx p < xs.length :=
    List.findIdx_lt_length_of_exists ⟨xs[i], List.getElem_mem below, holds⟩
  exact unique _ _ (List.getElem?_eq_getElem found) List.findIdx_getElem

theorem filterMap_getElem?_range (xs : List α) :
    (List.range xs.length).filterMap (xs[·]?) = xs := by
  induction xs using List.reverseRecOn with
  | nil => rfl
  | append_singleton xs x ih =>
      have before : (List.range xs.length).filterMap ((xs ++ [x])[·]?) =
          (List.range xs.length).filterMap (xs[·]?) := by
        apply List.filterMap_congr
        intro i below
        rw [List.getElem?_append_left (List.mem_range.1 below)]
      rw [List.length_append, List.length_singleton, List.range_succ, List.filterMap_append,
        before, ih]
      simp

/-- Groups by distinct keys put together are the whole list in another order, when every element
    has its group among the keys. -/
theorem perm_groups {κ : Type} [DecidableEq κ] (group : α → κ) {keys : List κ}
    (distinct : keys.Nodup) {xs : List α} (all : ∀ x ∈ xs, group x ∈ keys) :
    (keys.flatMap fun k => xs.filter fun x => group x = k).Perm xs := by
  induction keys generalizing xs with
  | nil =>
      have empty : xs = [] :=
        List.eq_nil_iff_forall_not_mem.2 fun x member => absurd (all x member) List.not_mem_nil
      rw [empty]
      exact .nil
  | cons k keys ih =>
      obtain ⟨absent, distinct⟩ := List.nodup_cons.1 distinct
      -- the groups of the other keys have nothing of the first one
      have others : keys.flatMap (fun l => xs.filter fun x => group x = l) =
          keys.flatMap fun l => (xs.filter fun x => !decide (group x = k)).filter
            fun x => group x = l := by
        refine List.flatMap_congr fun l member => ?_
        rw [List.filter_filter]
        apply List.filter_congr
        intro x _
        by_cases here : group x = l
        · have apart : group x ≠ k := fun same => absent (same ▸ here ▸ member)
          simp [here, here ▸ apart]
        · simp [here]
      have grouped : ∀ x ∈ xs.filter (fun x => !decide (group x = k)), group x ∈ keys := by
        intro x member
        obtain ⟨member, apart⟩ := List.mem_filter.1 member
        exact (List.mem_cons.1 (all x member)).resolve_left (by simpa using apart)
      rw [List.flatMap_cons, others]
      exact ((ih distinct grouped).append_left _).trans (List.filter_append_perm _ xs)

end CallProfile
