import CallProfile.Proofs.Lists
import CallProfile.Proofs.Tally
import Mathlib.Data.List.Perm.Basic

/-! # The keys of tallies

A tally of a list has its keys in the order of their first encounters, so a tally is known by its
keys and its amounts. Lists that are rearranged give tallies that differ in the order of the keys
only.
-/

namespace CallProfile

/-! ## First encounters -/

section FirstEncounters

variable {κ : Type} [BEq κ] [LawfulBEq κ]

theorem eraseDups_of_nodup {xs : List κ} (distinct : xs.Nodup) : xs.eraseDups = xs := by
  induction xs with
  | nil => rfl
  | cons x xs ih =>
      obtain ⟨absent, distinct⟩ := List.nodup_cons.1 distinct
      have others : xs.filter (fun y => !y == x) = xs := by
        rw [List.filter_eq_self]
        intro y member
        have other : y ≠ x := fun same => absent (same ▸ member)
        simp [other]
      rw [List.eraseDups_cons, others, ih distinct]

theorem eraseDups_filter (p : κ → Bool) (xs : List κ) :
    (xs.filter p).eraseDups = xs.eraseDups.filter p := by
  induction xs using List.reverseRecOn with
  | nil => rfl
  | append_singleton xs x ih =>
      rw [List.filter_append, List.eraseDups_append, List.eraseDups_append, List.filter_append, ih]
      by_cases chosen : p x = true
      · by_cases member : x ∈ xs <;>
          simp [List.removeAll, List.eraseDups_cons, chosen, member]
      · by_cases member : x ∈ xs <;>
          simp [List.removeAll, List.eraseDups_cons, chosen, member]

theorem eraseDups_append_left (xs ys : List κ) :
    (xs.eraseDups ++ ys).eraseDups = (xs ++ ys).eraseDups := by
  have others : ys.removeAll xs.eraseDups = ys.removeAll xs := by
    simp only [List.removeAll]
    congr 1
    funext y
    simp
  rw [List.eraseDups_append, List.eraseDups_append, others,
    eraseDups_of_nodup (nodup_eraseDups xs)]

theorem eraseDups_append_right (xs ys : List κ) :
    (xs ++ ys.eraseDups).eraseDups = (xs ++ ys).eraseDups := by
  have others : (ys.eraseDups.removeAll xs).eraseDups = (ys.removeAll xs).eraseDups := by
    rw [List.removeAll, List.removeAll, eraseDups_filter, eraseDups_filter,
      eraseDups_of_nodup (nodup_eraseDups ys)]
  rw [List.eraseDups_append, List.eraseDups_append, others]

theorem perm_eraseDups {xs ys : List κ} (rearranged : xs.Perm ys) :
    xs.eraseDups.Perm ys.eraseDups := by
  rw [List.perm_ext_iff_of_nodup (nodup_eraseDups xs) (nodup_eraseDups ys)]
  intro x
  rw [List.mem_eraseDups, List.mem_eraseDups, rearranged.mem_iff]

end FirstEncounters

namespace Tally

variable {κ ν : Type} [DecidableEq κ]

theorem keys_changeEntry (start : ν) (k : κ) (change : ν → ν) (entries : List (κ × ν)) :
    (changeEntry start k change entries).map (·.1) =
      if k ∈ entries.map (·.1) then entries.map (·.1) else entries.map (·.1) ++ [k] := by
  induction entries with
  | nil => rfl
  | cons e entries ih =>
      obtain ⟨key, n⟩ := e
      simp only [changeEntry]
      by_cases same : key = k
      · rw [if_pos same, if_pos (by simp [same])]
        rfl
      · rw [if_neg same, List.map_cons, ih]
        have other : k ≠ key := fun other => same other.symm
        by_cases member : k ∈ entries.map (·.1)
        · rw [if_pos member]
          exact (if_pos (List.mem_cons_of_mem _ member)).symm
        · rw [if_neg member]
          exact (if_neg (by simpa [other] using member)).symm

variable [AddCommMonoid ν]

theorem keys_add (t : Tally κ ν) (k : κ) (n : ν) :
    (t.add k n).keys = (t.keys ++ [k]).eraseDups := by
  refine (keys_changeEntry 0 k (· + n) t.entries).trans ?_
  have old : t.keys.eraseDups = t.keys := eraseDups_of_nodup t.nodup
  rw [List.eraseDups_append, old]
  by_cases member : k ∈ t.entries.map (·.1)
  · have gone : [k].removeAll t.keys = [] := by simp [List.removeAll, keys, member]
    rw [if_pos member, gone, List.eraseDups_nil, List.append_nil]
    rfl
  · have kept : [k].removeAll t.keys = [k] := by
      rw [List.removeAll, List.filter_eq_self]
      simpa [keys] using member
    rw [if_neg member, kept, eraseDups_of_nodup (List.nodup_singleton k)]
    rfl

theorem keys_addAll (t : Tally κ ν) (entries : List (κ × ν)) :
    (t.addAll entries).keys = (t.keys ++ entries.map (·.1)).eraseDups := by
  induction entries generalizing t with
  | nil =>
      rw [List.map_nil, List.append_nil]
      exact (eraseDups_of_nodup t.nodup).symm
  | cons e entries ih =>
      have rest : (t.addAll (e :: entries)).keys =
          ((t.add e.1 e.2).keys ++ entries.map (·.1)).eraseDups := ih (t.add e.1 e.2)
      rw [rest, keys_add, eraseDups_append_left, List.append_assoc]
      rfl

theorem keys_ofList (entries : List (κ × ν)) :
    (ofList entries).keys = (entries.map (·.1)).eraseDups :=
  keys_addAll empty entries

theorem keys_merge (t u : Tally κ ν) : (t.merge u).keys = (t.keys ++ u.keys).eraseDups :=
  keys_addAll t u.entries

theorem entries_eq (t : Tally κ ν) : t.entries = t.keys.map fun k => (k, t.count k) := by
  rw [keys, List.map_map]
  have same : ∀ e ∈ t.entries, (e.1, t.count e.1) = e := fun e member =>
    Prod.ext rfl (count_of_mem member)
  exact (List.map_congr_left same).trans (List.map_id t.entries) |>.symm

/-- A tally is known by its keys and its amounts. -/
theorem eq_of_counts {t u : Tally κ ν} (keys : t.keys = u.keys)
    (counts : ∀ k, t.count k = u.count k) : t = u := by
  have entries : t.entries = u.entries := by
    rw [entries_eq, entries_eq, keys]
    exact List.map_congr_left fun k _ => by rw [counts k]
  cases t
  cases u
  cases entries
  rfl

theorem count_empty (k : κ) : (empty : Tally κ ν).count k = 0 :=
  rfl

theorem empty_merge (t : Tally κ ν) : empty.merge t = t := by
  refine eq_of_counts ?_ fun k => ?_
  · rw [keys_merge]
    exact eraseDups_of_nodup t.nodup
  · rw [count_merge, count_empty, zero_add]

theorem merge_empty (t : Tally κ ν) : t.merge empty = t :=
  rfl

theorem ofList_append (first second : List (κ × ν)) :
    ofList (first ++ second) = (ofList first).merge (ofList second) := by
  refine eq_of_counts ?_ fun k => ?_
  · rw [keys_merge, keys_ofList, keys_ofList, keys_ofList, List.map_append,
      eraseDups_append_left, eraseDups_append_right]
  · rw [count_merge, count_ofList, count_ofList, count_ofList, amountOf, List.filter_append,
      List.map_append, List.sum_append]
    rfl

/-- Whether two tallies have the same amounts, in any order of the keys. -/
structure Reordered (t u : Tally κ ν) : Prop where
  keys : t.keys.Perm u.keys
  counts : ∀ k, t.count k = u.count k

namespace Reordered

variable {t u : Tally κ ν}

theorem entries (reordered : t.Reordered u) : t.entries.Perm u.entries := by
  have counts : t.count = u.count := funext reordered.counts
  rw [entries_eq t, entries_eq u, counts]
  exact reordered.keys.map _

theorem total (reordered : t.Reordered u) : t.total = u.total := by
  have amounts : t.amounts.Perm u.amounts := reordered.entries.map _
  exact amounts.sum_eq

end Reordered

theorem reordered_ofList {first second : List (κ × ν)} (rearranged : first.Perm second) :
    (ofList first).Reordered (ofList second) where
  keys := by
    rw [keys_ofList, keys_ofList]
    exact perm_eraseDups (rearranged.map (·.1))
  counts k := by
    rw [count_ofList, count_ofList]
    exact ((rearranged.filter _).map (·.2)).sum_eq

end Tally

end CallProfile
