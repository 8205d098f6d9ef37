import CallProfile.Tally
import Mathlib.Algebra.BigOperators.Group.Finset.Basic
import Mathlib.Data.List.Nodup

/-! # What a tally counts

A tally of a list has the keys of the list, and whatever keys are asked for, their amounts
together are those of the list.
-/

namespace CallProfile.Tally

variable {κ ν : Type}

/-- The amounts of some keys together. -/
def amountOf [Add ν] [Zero ν] (entries : List (κ × ν)) (p : κ → Bool) : ν :=
  ((entries.filter fun e => p e.1).map (·.2)).sum

variable [AddCommMonoid ν]

@[simp] theorem amountOf_nil (p : κ → Bool) : amountOf ([] : List (κ × ν)) p = 0 :=
  rfl

theorem amountOf_cons (e : κ × ν) (entries : List (κ × ν)) (p : κ → Bool) :
    amountOf (e :: entries) p = (if p e.1 = true then e.2 else 0) + amountOf entries p := by
  unfold amountOf
  by_cases chosen : p e.1 = true
  · simp [chosen]
  · simp [chosen]

variable [DecidableEq κ]

theorem amountOf_changeEntry (k : κ) (n : ν) (entries : List (κ × ν)) (p : κ → Bool) :
    amountOf (changeEntry 0 k (· + n) entries) p =
      amountOf entries p + if p k = true then n else 0 := by
  induction entries with
  | nil => simp [changeEntry, amountOf_cons]
  | cons e entries ih =>
      obtain ⟨key, m⟩ := e
      simp only [changeEntry]
      split
      · next same =>
          subst same
          simp only [amountOf_cons]
          split
          · rw [add_right_comm]
          · rw [add_zero]
      · rw [amountOf_cons, amountOf_cons, ih, add_assoc]

theorem amountOf_addAll (t : Tally κ ν) (entries : List (κ × ν)) (p : κ → Bool) :
    amountOf (t.addAll entries).entries p = amountOf t.entries p + amountOf entries p := by
  induction entries generalizing t with
  | nil => simp [addAll]
  | cons e entries ih =>
      have rest : amountOf ((t.add e.1 e.2).addAll entries).entries p =
          amountOf (t.add e.1 e.2).entries p + amountOf entries p := ih (t.add e.1 e.2)
      have first : amountOf (t.add e.1 e.2).entries p =
          amountOf t.entries p + if p e.1 = true then e.2 else 0 :=
        amountOf_changeEntry e.1 e.2 t.entries p
      rw [amountOf_cons, ← add_assoc, ← first]
      exact rest

/-- Adding up by key keeps the amount of any set of keys. -/
theorem amountOf_ofList (entries : List (κ × ν)) (p : κ → Bool) :
    amountOf (ofList entries).entries p = amountOf entries p := by
  have added := amountOf_addAll empty entries p
  rwa [show (empty : Tally κ ν).entries = [] from rfl, amountOf_nil, zero_add] at added

theorem mem_keys_addAll (t : Tally κ ν) (entries : List (κ × ν)) (k : κ) :
    k ∈ (t.addAll entries).keys ↔ k ∈ t.keys ∨ ∃ e ∈ entries, e.1 = k := by
  induction entries generalizing t with
  | nil => simp [addAll]
  | cons e entries ih =>
      have rest : k ∈ ((t.add e.1 e.2).addAll entries).keys ↔
          k ∈ (t.add e.1 e.2).keys ∨ ∃ e ∈ entries, e.1 = k := ih (t.add e.1 e.2)
      have first : k ∈ (t.add e.1 e.2).keys ↔ k = e.1 ∨ k ∈ t.keys :=
        mem_keys_changeEntry 0 e.1 (· + e.2) t.entries k
      rw [first] at rest
      simp only [List.mem_cons, exists_eq_or_imp]
      rw [show k ∈ (t.addAll (e :: entries)).keys ↔ _ from rest]
      tauto

theorem mem_keys_ofList (entries : List (κ × ν)) (k : κ) :
    k ∈ (ofList entries).keys ↔ ∃ e ∈ entries, e.1 = k := by
  have added := mem_keys_addAll empty entries k
  rwa [show (empty : Tally κ ν).keys = [] from rfl, or_iff_right (by simp)] at added

omit [AddCommMonoid ν] in
theorem filter_key {entries : List (κ × ν)} (distinct : (entries.map (·.1)).Nodup) {e : κ × ν}
    (member : e ∈ entries) : entries.filter (fun x => decide (x.1 = e.1)) = [e] := by
  induction entries with
  | nil => simp at member
  | cons x entries ih =>
      rw [List.map_cons, List.nodup_cons] at distinct
      rcases List.mem_cons.1 member with rfl | later
      · rw [List.filter_cons_of_pos (by simp), List.cons_inj_right, List.filter_eq_nil_iff]
        intro y present same
        rw [decide_eq_true_eq] at same
        exact distinct.1 (same ▸ List.mem_map_of_mem present)
      · have other : x.1 ≠ e.1 := by
          intro same
          exact distinct.1 (same ▸ List.mem_map_of_mem later)
        rw [List.filter_cons_of_neg (by simpa using other)]
        exact ih distinct.2 later

theorem count_of_mem {t : Tally κ ν} {e : κ × ν} (member : e ∈ t.entries) :
    t.count e.1 = e.2 := by
  rw [count, find?, ← List.head?_filter, filter_key t.nodup member]
  rfl

theorem count_of_absent {t : Tally κ ν} {k : κ} (absent : k ∉ t.keys) : t.count k = 0 := by
  have missing : t.entries.find? (·.1 = k) = none := by
    rw [List.find?_eq_none]
    intro e member same
    exact absent (List.mem_map.2 ⟨e, member, by simpa using same⟩)
  simp [count, find?, missing]

theorem mem_keys_of_count {t : Tally κ ν} {k : κ} (some : t.count k ≠ 0) : k ∈ t.keys := by
  by_contra absent
  exact some (count_of_absent absent)

theorem mem_entries_iff {t : Tally κ ν} {e : κ × ν} :
    e ∈ t.entries ↔ e.1 ∈ t.keys ∧ t.count e.1 = e.2 := by
  refine ⟨fun member => ⟨List.mem_map_of_mem member, count_of_mem member⟩, ?_⟩
  rintro ⟨present, amount⟩
  obtain ⟨other, member, same⟩ := List.mem_map.1 present
  rw [← same, count_of_mem member] at amount
  rwa [Prod.ext same.symm amount.symm]

theorem count_eq_amountOf (t : Tally κ ν) (k : κ) :
    t.count k = amountOf t.entries fun key => decide (key = k) := by
  by_cases present : k ∈ t.keys
  · obtain ⟨e, member, rfl⟩ := List.mem_map.1 present
    rw [count_of_mem member, amountOf, filter_key t.nodup member]
    simp
  · have missing : t.entries.filter (fun e => decide (e.1 = k)) = [] := by
      rw [List.filter_eq_nil_iff]
      intro e member same
      exact present (List.mem_map.2 ⟨e, member, by simpa using same⟩)
    rw [count_of_absent present, amountOf, missing]
    rfl

/-- The amount of a key in a tally of a list is that of all its entries in the list. -/
theorem count_ofList (entries : List (κ × ν)) (k : κ) :
    (ofList entries).count k = amountOf entries fun key => decide (key = k) := by
  rw [count_eq_amountOf, amountOf_ofList]

theorem count_addAll (t : Tally κ ν) (entries : List (κ × ν)) (k : κ) :
    (t.addAll entries).count k = t.count k + amountOf entries fun key => decide (key = k) := by
  rw [count_eq_amountOf, count_eq_amountOf, amountOf_addAll]

theorem count_merge (t u : Tally κ ν) (k : κ) : (t.merge u).count k = t.count k + u.count k := by
  rw [merge, count_addAll, count_eq_amountOf u]

omit [DecidableEq κ] in
theorem total_eq_amountOf (t : Tally κ ν) : t.total = amountOf t.entries fun _ => true := by
  rw [total, amounts, amountOf, List.filter_true]

theorem total_ofList (entries : List (κ × ν)) :
    (ofList entries).total = (entries.map (·.2)).sum := by
  rw [total_eq_amountOf, amountOf_ofList, amountOf, List.filter_true]

theorem total_merge (t u : Tally κ ν) : (t.merge u).total = t.total + u.total := by
  rw [total_eq_amountOf, merge, amountOf_addAll, total_eq_amountOf, total_eq_amountOf]

/-- Amounts that depend on the key add up to those of any set of keys that has all the keys
    chosen, when the other ones have none. -/
theorem amountOf_eq_sum {entries : List (κ × ν)} {p : κ → Bool} {f : κ → ν}
    {keys : Finset κ} (distinct : (entries.map (·.1)).Nodup)
    (amount : ∀ e ∈ entries, e.2 = f e.1) (chosen : ∀ e ∈ entries, p e.1 = true → e.1 ∈ keys)
    (rest : ∀ k ∈ keys, p k = true ∧ k ∈ entries.map (·.1) ∨ f k = 0) :
    amountOf entries p = ∑ k ∈ keys, f k := by
  have same : (entries.filter fun e => p e.1).map (·.2) =
      ((entries.filter fun e => p e.1).map (·.1)).map f := by
    rw [List.map_map]
    exact List.map_congr_left fun e member => amount e (List.mem_of_mem_filter member)
  have distinct' : ((entries.filter fun e => p e.1).map (·.1)).Nodup :=
    distinct.sublist (List.filter_sublist.map _)
  rw [amountOf, same, ← List.sum_toFinset f distinct']
  refine Finset.sum_subset ?_ ?_
  · intro k member
    obtain ⟨e, listed, rfl⟩ := List.mem_map.1 (List.mem_toFinset.1 member)
    obtain ⟨present, holds⟩ := List.mem_filter.1 listed
    exact chosen e present holds
  · intro k member absent
    refine (rest k member).resolve_left fun ⟨holds, present⟩ => absent ?_
    obtain ⟨e, listed, rfl⟩ := List.mem_map.1 present
    exact List.mem_toFinset.2 (List.mem_map_of_mem (List.mem_filter.2 ⟨listed, holds⟩))

/-- The total is the sum over any keys that leave out none with an amount. -/
theorem total_eq_sum (t : Tally κ ν) {keys : Finset κ}
    (all : ∀ k ∈ t.keys, t.count k ≠ 0 → k ∈ keys) : t.total = ∑ k ∈ keys, t.count k := by
  have own : amountOf t.entries (fun _ => true) = ∑ k ∈ t.keys.toFinset, t.count k := by
    refine amountOf_eq_sum t.nodup (fun e member => (count_of_mem member).symm) ?_ ?_
    · exact fun e member _ => List.mem_toFinset.2 (List.mem_map_of_mem member)
    · exact fun k member => .inl ⟨rfl, List.mem_toFinset.1 member⟩
  rw [total_eq_amountOf, own]
  calc ∑ k ∈ t.keys.toFinset, t.count k
      = ∑ k ∈ t.keys.toFinset ∪ keys, t.count k := by
        refine Finset.sum_subset Finset.subset_union_left fun k _ absent => ?_
        exact count_of_absent fun present => absent (List.mem_toFinset.2 present)
    _ = ∑ k ∈ keys, t.count k := by
        refine (Finset.sum_subset Finset.subset_union_right fun k member absent => ?_).symm
        by_contra amount
        have present : k ∈ t.keys := by simpa [absent] using member
        exact absent (all k present amount)

end CallProfile.Tally
