import Mathlib.Data.List.Perm.Basic

/-! # Lists in any order

Lists that are related element by element, in order or once one of them is rearranged, and lists
with keys.
-/

namespace CallProfile

variable {α β γ δ κ : Type} {related : α → β → Prop} {xs : List α} {ys : List β}

theorem find?_forall₂ {p : α → Bool} {q : β → Bool} (lists : List.Forall₂ related xs ys)
    (same : ∀ x y, related x y → p x = q y) : Option.Rel related (xs.find? p) (ys.find? q) := by
  induction lists with
  | nil => exact .none
  | @cons x y _ _ first _ ih =>
      rw [List.find?_cons, List.find?_cons, same x y first]
      cases q y with
      | false => exact ih
      | true => exact .some first

theorem map_eq_of_forall₂ {f : α → κ} {g : β → κ} (lists : List.Forall₂ related xs ys)
    (same : ∀ x y, related x y → f x = g y) : xs.map f = ys.map g := by
  rw [← List.forall₂_eq_eq_eq, List.forall₂_map_left_iff, List.forall₂_map_right_iff]
  exact lists.imp same

theorem exists_of_forall₂ (lists : List.Forall₂ related xs ys) {y : β} (member : y ∈ ys) :
    ∃ x ∈ xs, related x y := by
  induction lists with
  | nil => cases member
  | @cons x _ xs _ first _ ih =>
      rcases List.mem_cons.1 member with rfl | later
      · exact ⟨x, List.mem_cons_self, first⟩
      · obtain ⟨z, listed, holds⟩ := ih later
        exact ⟨z, List.mem_cons_of_mem x listed, holds⟩

/-- Whether two lists are related once one of them is rearranged. -/
def Matches (related : α → β → Prop) (xs : List α) (ys : List β) : Prop :=
  ∃ zs, zs.Perm ys ∧ List.Forall₂ related xs zs

namespace Matches

theorem of_perm {xs ys : List α} (rearranged : xs.Perm ys) : Matches Eq xs ys :=
  ⟨xs, rearranged, List.forall₂_same.2 fun _ _ => rfl⟩

theorem imp {other : α → β → Prop} (lists : Matches related xs ys)
    (stronger : ∀ x ∈ xs, ∀ y ∈ ys, related x y → other x y) : Matches other xs ys := by
  obtain ⟨zs, rearranged, matched⟩ := lists
  rw [List.forall₂_iff_zip] at matched
  refine ⟨zs, rearranged, List.forall₂_iff_zip.2 ⟨matched.1, fun {x y} pair => ?_⟩⟩
  obtain ⟨first, second⟩ := List.of_mem_zip pair
  exact stronger x first y (rearranged.mem_iff.1 second) (matched.2 pair)

theorem of_keys {f : α → κ} {g : β → κ} (keys : (xs.map f).Perm (ys.map g))
    (same : ∀ x ∈ xs, ∀ y ∈ ys, f x = g y → related x y) : Matches related xs ys := by
  have own : List.Forall₂ (fun k y => k = g y) (ys.map g) ys := by
    rw [List.forall₂_map_left_iff, List.forall₂_same]
    exact fun _ _ => rfl
  obtain ⟨zs, matched, rearranged⟩ := List.perm_comp_forall₂ keys own
  have keyed : Matches (fun x y => f x = g y) xs ys :=
    ⟨zs, rearranged, List.forall₂_map_left_iff.1 matched⟩
  exact keyed.imp same

theorem filterMap {other : γ → δ → Prop} {f : α → Option γ} {g : β → Option δ}
    (lists : Matches related xs ys) (same : ∀ x y, related x y → Option.Rel other (f x) (g y)) :
    Matches other (xs.filterMap f) (ys.filterMap g) := by
  obtain ⟨zs, rearranged, matched⟩ := lists
  exact ⟨zs.filterMap g, rearranged.filterMap g, List.rel_filterMap (fun {x y} => same x y) matched⟩

theorem map_perm {f : α → κ} {g : β → κ} (lists : Matches related xs ys)
    (same : ∀ x y, related x y → f x = g y) : (xs.map f).Perm (ys.map g) := by
  obtain ⟨zs, rearranged, matched⟩ := lists
  rw [map_eq_of_forall₂ matched same]
  exact rearranged.map g

end Matches

theorem lookup_of_mem [BEq κ] [LawfulBEq κ] {xs : List (κ × β)} (distinct : (xs.map (·.1)).Nodup)
    {k : κ} {b : β} (member : (k, b) ∈ xs) : xs.lookup k = some b := by
  induction xs with
  | nil => cases member
  | cons x xs ih =>
      rw [List.map_cons, List.nodup_cons] at distinct
      rcases List.mem_cons.1 member with rfl | later
      · exact List.lookup_cons_self
      · have differ : k ≠ x.1 := by
          rintro rfl
          exact distinct.1 (List.mem_map.2 ⟨_, later, rfl⟩)
        rw [List.lookup_cons, beq_eq_false_iff_ne.2 differ]
        exact ih distinct.2 later

theorem lookup_perm [BEq κ] [LawfulBEq κ] {xs ys : List (κ × β)} (rearranged : xs.Perm ys)
    (distinct : (xs.map (·.1)).Nodup) (k : κ) : xs.lookup k = ys.lookup k := by
  induction rearranged with
  | nil => rfl
  | cons x _ ih =>
      rw [List.map_cons, List.nodup_cons] at distinct
      obtain ⟨key, b⟩ := x
      rw [List.lookup_cons, List.lookup_cons, ih distinct.2]
  | swap x y xs =>
      have differ : x.1 ≠ y.1 := fun same => by simp [same] at distinct
      obtain ⟨first, a⟩ := x
      obtain ⟨second, b⟩ := y
      rw [List.lookup_cons, List.lookup_cons, List.lookup_cons, List.lookup_cons]
      cases one : k == first <;> cases two : k == second <;> try rfl
      exact absurd ((eq_of_beq one).symm.trans (eq_of_beq two)) differ
  | trans first _ ih ih' => exact (ih distinct).trans (ih' ((first.map _).nodup distinct))

end CallProfile
