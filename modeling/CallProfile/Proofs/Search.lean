import CallProfile.Graph.Search
import Mathlib.Data.Finset.Card
import Mathlib.Data.List.TakeWhile
import Mathlib.Logic.Relation

/-! # What a depth-first search keeps

A search from a vertex adds to the path and to the finished components and takes nothing
away. Everything on the path leads to the vertex that is searched from, so a vertex that is
left on the path leads back to an older part of it, and one that does not closes a component.
-/

namespace CallProfile.Graph

variable {V : Type}

/-- Whether edges lead from one vertex to another, in any number. -/
abbrev Reaches (next : V → List V) : V → V → Prop :=
  Relation.ReflTransGen fun u w => w ∈ next u

/-- Finished components, the latest first: the vertices of one reach each other, and no edge
    leads to a component that is finished later. -/
inductive Settled (next : V → List V) : List (List V) → Prop where
  | nil : Settled next []
  | cons {c older} (nonempty : c ≠ []) (joined : ∀ u ∈ c, ∀ w ∈ c, Reaches next u w)
      (closed : ∀ u ∈ c, ∀ w ∈ next u, w ∈ c ∨ w ∈ older.flatten)
      (rest : Settled next older) : Settled next (c :: older)

variable [DecidableEq V]

namespace Search

/-- Whether a vertex is on the path or in a finished component. -/
def Met (s : Search V) (v : V) : Prop :=
  v ∈ s.path ∨ v ∈ s.finished.flatten

instance (s : Search V) : DecidablePred s.Met :=
  fun v => inferInstanceAs (Decidable (v ∈ s.path ∨ v ∈ s.finished.flatten))

theorem isFinished_iff {s : Search V} {v : V} :
    s.isFinished v = true ↔ v ∈ s.finished.flatten := by
  simp [isFinished]

theorem passes_absent {above : List V} {v : V} (absent : v ∉ above) :
    ∀ u ∈ above, decide (u ≠ v) = true := by
  intro u inside
  simpa using fun same : u = v => absent (same ▸ inside)

theorem height?_of_absent {s : Search V} {v : V} (absent : v ∉ s.path) :
    s.height? v = none := by
  simp only [height?, List.dropWhile_eq_nil_iff.2 (passes_absent absent)]

theorem dropWhile_split {above below : List V} {v : V} (absent : v ∉ above) :
    (above ++ v :: below).dropWhile (· ≠ v) = v :: below := by
  rw [List.dropWhile_append_of_pos (passes_absent absent)]
  simp

theorem height?_of_split {s : Search V} {above below : List V} {v : V}
    (path : s.path = above ++ v :: below) (absent : v ∉ above) :
    s.height? v = some below.length := by
  simp only [height?, path, dropWhile_split absent]

theorem height?_of_mem {s : Search V} {v : V} (inside : v ∈ s.path) :
    ∃ h, s.height? v = some h := by
  obtain ⟨above, below, path, absent⟩ := List.eq_append_cons_of_mem inside
  exact ⟨below.length, height?_of_split path absent⟩

theorem height?_lt {s : Search V} {v : V} {h : Nat} (found : s.height? v = some h) :
    v ∈ s.path ∧ h < s.path.length := by
  by_cases inside : v ∈ s.path
  · obtain ⟨above, below, path, absent⟩ := List.eq_append_cons_of_mem inside
    rw [height?_of_split path absent, Option.some.injEq] at found
    refine ⟨inside, ?_⟩
    rw [path, ← found]
    simp only [List.length_append, List.length_cons]
    omega
  · simp [height?_of_absent inside] at found

/-- What is put on a path changes no height below it. -/
theorem height?_of_append {s t : Search V} {new : List V} {v : V}
    (path : t.path = new ++ s.path) (inside : v ∈ s.path) (absent : v ∉ new) :
    t.height? v = s.height? v := by
  obtain ⟨above, below, split, first⟩ := List.eq_append_cons_of_mem inside
  have longer : t.path = (new ++ above) ++ v :: below := by
    rw [path, split, List.append_assoc]
  rw [height?_of_split split first,
    height?_of_split longer (by simp [absent, first])]

/-- What is put on a path is above all that was there. -/
theorem height?_of_new {s t : Search V} {new : List V} {v : V} {h : Nat}
    (path : t.path = new ++ s.path) (inside : v ∈ new) (found : t.height? v = some h) :
    s.path.length ≤ h := by
  obtain ⟨above, below, rfl, first⟩ := List.eq_append_cons_of_mem inside
  rw [List.append_assoc, List.cons_append] at path
  rw [height?_of_split path first, Option.some.injEq] at found
  simp only [← found, List.length_append]
  omega

theorem close_of_split {s : Search V} {above below : List V} {v : V}
    (path : s.path = above ++ v :: below) (absent : v ∉ above) :
    s.close v = { path := below, finished := (above ++ [v]) :: s.finished } := by
  have taken : (above ++ v :: below).takeWhile (· ≠ v) = above := by
    rw [List.takeWhile_append_of_pos (passes_absent absent)]
    simp
  simp only [close, path, taken, dropWhile_split absent, List.drop_succ_cons, List.drop_zero]

/-! ## What is met stays met -/

omit [DecidableEq V] in
theorem met_enter {s : Search V} {v x : V} (met : s.Met x) : (s.enter v).Met x :=
  met.imp_left (List.mem_cons_of_mem v)

theorem met_close {s : Search V} {v x : V} (met : s.Met x) : (s.close v).Met x := by
  by_cases inside : v ∈ s.path
  · obtain ⟨above, below, path, absent⟩ := List.eq_append_cons_of_mem inside
    rw [close_of_split path absent]
    rw [Met, path] at met
    simp only [Met, List.mem_append, List.mem_cons, List.flatten_cons, List.not_mem_nil,
      or_false] at met ⊢
    tauto
  · have whole := List.takeWhile_eq_self_iff.2 (passes_absent inside)
    rcases met with path | finished
    · exact .inr (by simp only [close, whole]; simp [path])
    · exact .inr (by simp [close, finished])

theorem met_follow {below : V → Search V → Nat × Search V}
    (keeps : ∀ w t x, t.Met x → (below w t).2.Met x) {found : Nat × Search V} {w x : V}
    (met : found.2.Met x) : (follow below found w).2.Met x := by
  unfold follow
  split
  · exact met
  · split
    · exact met
    · exact keeps w found.2 x met

theorem met_foldl_follow {below : V → Search V → Nat × Search V}
    (keeps : ∀ w t x, t.Met x → (below w t).2.Met x) (ws : List V) {found : Nat × Search V}
    {x : V} (met : found.2.Met x) : (ws.foldl (follow below) found).2.Met x := by
  induction ws generalizing found with
  | nil => exact met
  | cons w ws ih => exact ih (met_follow keeps met)

theorem met_visit (next : V → List V) (fuel : Nat) :
    ∀ (v : V) (s : Search V) (x : V), s.Met x → (visit next fuel v s).2.Met x := by
  induction fuel with
  | zero => exact fun _ _ _ met => met
  | succ fuel ih =>
      intro v s x met
      have kept : ((next v).foldl (follow (visit next fuel))
          (s.path.length, s.enter v)).2.Met x := met_foldl_follow ih (next v) (met_enter met)
      simp only [visit]
      split
      · exact kept
      · exact met_close kept

theorem not_mem_path_of_unseen {s : Search V} {w : V} (unseen : s.height? w = none) :
    w ∉ s.path := by
  intro path
  obtain ⟨h, height⟩ := height?_of_mem path
  simp [height] at unseen

theorem not_met_of_unseen {s : Search V} {w : V} (unseen : s.height? w = none)
    (unfinished : ¬ s.isFinished w = true) : ¬ s.Met w := by
  rintro (path | finished)
  · exact not_mem_path_of_unseen unseen path
  · exact unfinished (isFinished_iff.2 finished)

/-! ## How deep a search can go -/

/-- The vertices of a set that are not met. -/
def left (s : Search V) (all : Finset V) : Finset V :=
  all.filter (¬ s.Met ·)

theorem left_mono {s t : Search V} (all : Finset V) (grows : ∀ x, s.Met x → t.Met x) :
    (t.left all).card ≤ (s.left all).card := by
  apply Finset.card_le_card
  intro x inside
  rw [left, Finset.mem_filter] at inside ⊢
  exact ⟨inside.1, fun met => inside.2 (grows x met)⟩

theorem left_enter {s : Search V} {all : Finset V} {v : V} (inside : v ∈ all)
    (fresh : ¬ s.Met v) : ((s.enter v).left all).card < (s.left all).card := by
  apply Finset.card_lt_card
  rw [Finset.ssubset_iff_of_subset]
  · exact ⟨v, Finset.mem_filter.2 ⟨inside, fresh⟩, by simp [left, Met, enter]⟩
  · intro x member
    rw [left, Finset.mem_filter] at member ⊢
    exact ⟨member.1, fun met => member.2 (met_enter met)⟩

end Search

theorem follow_congr {below below' : V → Search V → Nat × Search V} {found : Nat × Search V}
    {w : V} (same : ¬ found.2.Met w → below' w found.2 = below w found.2) :
    follow below' found w = follow below found w := by
  unfold follow
  split
  · rfl
  · next unseen =>
      split
      · rfl
      · next unfinished => rw [same (Search.not_met_of_unseen unseen unfinished)]

/-- Searches that agree from every vertex not met, while few enough are left, agree along
    all edges. -/
theorem foldl_follow_congr {below below' : V → Search V → Nat × Search V} {all : Finset V}
    {fuel : Nat} (keeps : ∀ w t x, t.Met x → (below w t).2.Met x)
    (same : ∀ w ∈ all, ∀ t : Search V, ¬ t.Met w → (t.left all).card ≤ fuel →
      below' w t = below w t)
    {ws : List V} (inside : ∀ w ∈ ws, w ∈ all) {found : Nat × Search V}
    (enough : (found.2.left all).card ≤ fuel) :
    ws.foldl (follow below') found = ws.foldl (follow below) found := by
  induction ws generalizing found with
  | nil => rfl
  | cons w ws ih =>
      have first : follow below' found w = follow below found w :=
        follow_congr fun new => same w (inside w List.mem_cons_self) found.2 new enough
      rw [List.foldl_cons, List.foldl_cons, first]
      apply ih fun u member => inside u (List.mem_cons_of_mem w member)
      exact (Search.left_mono all fun x met => Search.met_follow keeps met).trans enough

theorem visit_fuel {next : V → List V} {all : Finset V}
    (closed : ∀ u ∈ all, ∀ w ∈ next u, w ∈ all) (extra : Nat) {fuel : Nat} :
    ∀ {v : V} {s : Search V}, v ∈ all → ¬ s.Met v → (s.left all).card ≤ fuel →
      visit next (fuel + extra) v s = visit next fuel v s := by
  induction fuel with
  | zero =>
      intro v s inside fresh bound
      have member : v ∈ s.left all := Finset.mem_filter.2 ⟨inside, fresh⟩
      simp [Finset.card_eq_zero.1 (Nat.le_zero.1 bound)] at member
  | succ fuel ih =>
      intro v s inside fresh bound
      -- Entering the vertex leaves one less to meet, so less fuel does below it.
      have entered := Search.left_enter inside fresh
      have enough : ((s.enter v).left all).card ≤ fuel := by omega
      have folds : (next v).foldl (follow (visit next (fuel + extra)))
          (s.path.length, s.enter v) =
            (next v).foldl (follow (visit next fuel)) (s.path.length, s.enter v) :=
        foldl_follow_congr (Search.met_visit next fuel)
          (fun w member t new few => ih member new few) (closed v inside) enough
      rw [Nat.add_right_comm, visit, visit, folds]

end CallProfile.Graph
