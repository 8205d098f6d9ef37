import Mathlib.Data.List.Forall2

/-! # Values and faults

What is computed from a value is computed when there is one. A list is treated element by element
up to the first fault.
-/

namespace CallProfile

variable {α β ε : Type} {fault : ε}

theorem ne_error_of_ok {x : Except ε α} {a : α} (made : x = .ok a) : x ≠ .error fault := by
  rw [made]
  exact nofun

theorem map_eq_ok_iff {f : α → β} {x : Except ε α} {b : β} :
    x.map f = .ok b ↔ ∃ a, x = .ok a ∧ f a = b := by
  cases x <;> simp [Except.map]

theorem map_eq_error_iff {f : α → β} {x : Except ε α} :
    x.map f = .error fault ↔ x = .error fault := by
  cases x <;> simp [Except.map]

theorem bind_eq_ok_iff {f : α → Except ε β} {x : Except ε α} {b : β} :
    x >>= f = .ok b ↔ ∃ a, x = .ok a ∧ f a = .ok b := by
  cases x <;> simp [bind, Except.bind]

theorem bind_eq_error_iff {f : α → Except ε β} {x : Except ε α} :
    x >>= f = .error fault ↔ x = .error fault ∨ ∃ a, x = .ok a ∧ f a = .error fault := by
  cases x <;> simp [bind, Except.bind]

theorem toOption_bind {f : α → Except ε β} {x : Except ε α} :
    (x >>= f).toOption = x.toOption.bind fun a => (f a).toOption := by
  cases x <;> rfl

theorem toOption_eq_some_iff {x : Except ε α} {a : α} : x.toOption = some a ↔ x = .ok a := by
  cases x <;> simp [Except.toOption]

theorem exists_of_isOk {x : Except ε α} (made : x.isOk = true) : ∃ a, x = .ok a := by
  cases x with
  | ok a => exact ⟨a, rfl⟩
  | error fault => cases made

theorem eq_ok_getD {x : Except ε α} (made : x.isOk = true) (other : α) :
    x = .ok (x.toOption.getD other) := by
  cases x with
  | ok a => rfl
  | error fault => cases made

theorem mapM_cons_eq_ok_iff {f : α → Except ε β} {x : α} {xs : List α} {bs : List β} :
    (x :: xs).mapM f = .ok bs ↔ ∃ b rest, f x = .ok b ∧ xs.mapM f = .ok rest ∧ bs = b :: rest := by
  rw [List.mapM_cons]
  cases f x with
  | error fault => simp [bind, Except.bind]
  | ok b =>
      cases xs.mapM f with
      | error fault => simp [bind, Except.bind]
      | ok rest => simp [bind, Except.bind, pure, Except.pure, eq_comm]

theorem mapM_append_singleton_eq_ok_iff {f : α → Except ε β} {xs : List α} {x : α}
    {bs : List β} :
    (xs ++ [x]).mapM f = .ok bs ↔
      ∃ front b, xs.mapM f = .ok front ∧ f x = .ok b ∧ bs = front ++ [b] := by
  rw [List.mapM_append, List.mapM_cons, List.mapM_nil]
  cases xs.mapM f with
  | error fault => simp [bind, Except.bind]
  | ok front =>
      cases f x with
      | error fault => simp [bind, Except.bind]
      | ok b => simp [bind, Except.bind, pure, Except.pure, eq_comm]

theorem exists_of_mapM {f : α → Except ε β} {xs : List α} {bs : List β} {x : α}
    (made : xs.mapM f = .ok bs) (member : x ∈ xs) : ∃ b, f x = .ok b := by
  induction xs generalizing bs with
  | nil => cases member
  | cons y xs ih =>
      obtain ⟨b, rest, first, others, rfl⟩ := mapM_cons_eq_ok_iff.1 made
      rcases List.mem_cons.1 member with rfl | later
      · exact ⟨b, first⟩
      · exact ih others later

theorem exists_mapM {f : α → Except ε β} {related : α → β → Prop} {xs : List α}
    (each : ∀ x ∈ xs, ∃ b, f x = .ok b ∧ related x b) :
    ∃ bs, xs.mapM f = .ok bs ∧ List.Forall₂ related xs bs := by
  induction xs with
  | nil => exact ⟨[], rfl, .nil⟩
  | cons x xs ih =>
      obtain ⟨b, first, holds⟩ := each x List.mem_cons_self
      obtain ⟨bs, rest, hold⟩ := ih fun y later => each y (List.mem_cons_of_mem x later)
      exact ⟨b :: bs, mapM_cons_eq_ok_iff.2 ⟨b, bs, first, rest, rfl⟩, .cons holds hold⟩

theorem exists_mapM_of_forall {f : α → Except ε β} {xs : List α}
    (each : ∀ x ∈ xs, ∃ b, f x = .ok b) : ∃ bs, xs.mapM f = .ok bs := by
  have kept : ∀ x ∈ xs, ∃ b, f x = .ok b ∧ True := by
    simpa only [and_true] using each
  obtain ⟨bs, made, -⟩ := exists_mapM kept
  exact ⟨bs, made⟩

theorem mapM_eq_ok_iff_forall₂ {f : α → Except ε β} {xs : List α} {bs : List β} :
    xs.mapM f = .ok bs ↔ List.Forall₂ (fun x b => f x = .ok b) xs bs := by
  induction xs generalizing bs with
  | nil =>
      rw [List.mapM_nil, List.forall₂_nil_left_iff]
      exact ⟨fun same => (Except.ok.inj same).symm, fun same => congrArg Except.ok same.symm⟩
  | cons x xs ih =>
      rw [mapM_cons_eq_ok_iff, List.forall₂_cons_left_iff]
      simp only [ih]

theorem filterMap_of_mapM {f : α → Except ε β} {xs : List α} {bs : List β}
    (made : xs.mapM f = .ok bs) : xs.filterMap (fun x => (f x).toOption) = bs := by
  induction xs generalizing bs with
  | nil =>
      cases made
      rfl
  | cons x xs ih =>
      obtain ⟨b, rest, first, others, rfl⟩ := mapM_cons_eq_ok_iff.1 made
      rw [List.filterMap_cons, first, ih others]
      rfl

theorem exists_of_mem_mapM {f : α → Except ε β} {xs : List α} {bs : List β} {b : β}
    (made : xs.mapM f = .ok bs) (member : b ∈ bs) : ∃ x ∈ xs, f x = .ok b := by
  rw [← filterMap_of_mapM made] at member
  obtain ⟨x, listed, some⟩ := List.mem_filterMap.1 member
  exact ⟨x, listed, toOption_eq_some_iff.1 some⟩

end CallProfile
