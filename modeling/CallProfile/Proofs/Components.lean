import CallProfile.Proofs.Search
import Mathlib.Data.Finset.Basic

/-! # The components of a graph

What a search returns is right when it is known of the search below each edge. The number
that comes back from a vertex is the height of the lowest vertex of the older path that an
edge leads to, so a vertex whose number is its own height has no way down, and the path
from its top to it is a component.
-/

namespace CallProfile.Graph

variable {V : Type} [DecidableEq V] {next : V → List V}

namespace Search

/-- The vertices of a search are distinct and its finished components are in order. -/
structure Sound (next : V → List V) (s : Search V) : Prop where
  distinct : (s.path ++ s.finished.flatten).Nodup
  settled : Settled next s.finished

/-- One search goes on from another: it has more on the path and more components. -/
structure Extends (s t : Search V) : Prop where
  path : s.path <:+ t.path
  finished : s.finished <:+ t.finished

/-- A vertex that was met by the end of a search, which knows of it if it is on the path
    that the search started with. -/
def Noted (s : Search V) (found : Nat × Search V) (w : V) : Prop :=
  found.2.Met w ∧ ∀ h, s.height? w = some h → found.1 ≤ h

/-- What a search from a vertex leaves behind. -/
structure Visited (next : V → List V) (v : V) (s : Search V) (found : Nat × Search V) :
    Prop where
  sound : Sound next found.2
  grown : Extends s found.2
  met : found.2.Met v
  reached : ∀ y, found.2.Met y → s.Met y ∨ Reaches next v y
  bound : found.1 ≤ s.path.length
  lowest : found.1 < s.path.length → ∃ z, s.height? z = some found.1 ∧ Reaches next v z
  escapes : ∀ y ∈ found.2.path, y ∉ s.path → ∃ z ∈ s.path, Reaches next y z
  noted : ∀ y ∈ found.2.path, y ∉ s.path → ∀ w ∈ next y, Noted s found w

/-- Where a search from a vertex stands after some of the edges from it. -/
structure Scanned (next : V → List V) (v : V) (s : Search V) (done : List V)
    (found : Nat × Search V) : Prop where
  sound : Sound next found.2
  grown : Extends (s.enter v) found.2
  reached : ∀ y, found.2.Met y → s.Met y ∨ Reaches next v y
  bound : found.1 ≤ s.path.length
  lowest : found.1 < s.path.length → ∃ z, s.height? z = some found.1 ∧ Reaches next v z
  leads : ∀ y ∈ found.2.path, Reaches next y v
  noted : ∀ y ∈ found.2.path, y ∉ s.path → y ≠ v → ∀ w ∈ next y, Noted s found w
  scanned : ∀ w ∈ done, Noted s found w

omit [DecidableEq V] in
theorem Extends.refl (s : Search V) : Extends s s :=
  ⟨List.suffix_refl _, List.suffix_refl _⟩

omit [DecidableEq V] in
theorem Extends.trans {s t u : Search V} (first : Extends s t) (second : Extends t u) :
    Extends s u :=
  ⟨first.path.trans second.path, first.finished.trans second.finished⟩

omit [DecidableEq V] in
theorem Extends.met {s t : Search V} (grown : Extends s t) {x : V} (met : s.Met x) :
    t.Met x := by
  obtain ⟨more, finished⟩ := grown.finished
  rcases met with path | old
  · exact .inl (grown.path.subset path)
  · exact .inr (by rw [← finished, List.flatten_append]; exact List.mem_append_right _ old)

omit [DecidableEq V] in
theorem extends_enter (s : Search V) (v : V) : Extends s (s.enter v) :=
  ⟨List.suffix_cons v s.path, List.suffix_refl _⟩

omit [DecidableEq V] in
theorem Sound.new_path {s t : Search V} (sound : Sound next t) (grown : Extends s t) :
    ∃ new, t.path = new ++ s.path ∧ ∀ y ∈ s.path, y ∉ new := by
  obtain ⟨new, path⟩ := grown.path
  refine ⟨new, path.symm, fun y old fresh => ?_⟩
  have distinct := (List.nodup_append.1 sound.distinct).1
  rw [← path] at distinct
  exact (List.nodup_append.1 distinct).2.2 y fresh y old rfl

theorem Sound.height_eq {s t : Search V} (sound : Sound next t) (grown : Extends s t)
    {y : V} (inside : y ∈ s.path) : t.height? y = s.height? y := by
  obtain ⟨new, path, apart⟩ := sound.new_path grown
  exact height?_of_append path inside (apart y inside)

/-- A height that the older path has belongs to a vertex of it. -/
theorem Sound.of_height_lt {s t : Search V} (sound : Sound next t) (grown : Extends s t)
    {y : V} {h : Nat} (found : t.height? y = some h) (low : h < s.path.length) :
    s.height? y = some h := by
  obtain ⟨new, path, apart⟩ := sound.new_path grown
  by_cases inside : y ∈ s.path
  · rw [← height?_of_append path inside (apart y inside), found]
  · have fresh : y ∈ new := by
      have member := path ▸ (height?_lt found).1
      exact (List.mem_append.1 member).resolve_right inside
    have := height?_of_new path fresh found
    omega

theorem Noted.mono {s : Search V} {found found' : Nat × Search V} {w : V}
    (noted : Noted s found w) (le : found'.1 ≤ found.1)
    (keeps : found.2.Met w → found'.2.Met w) : Noted s found' w :=
  ⟨keeps noted.1, fun h height => le.trans (noted.2 h height)⟩

theorem Noted.older {s t : Search V} {found : Nat × Search V} {w : V}
    (sound : Sound next t) (grown : Extends s t) (noted : Noted t found w) :
    Noted s found w := by
  refine ⟨noted.1, fun h height => noted.2 h ?_⟩
  rw [sound.height_eq grown (height?_lt height).1, height]

omit [DecidableEq V] in
theorem Sound.fresh_of_new {s t : Search V} (sound : Sound next t) (grown : Extends s t)
    {y : V} (inside : y ∈ t.path) (new : y ∉ s.path) : ¬ s.Met y := by
  rintro (path | old)
  · exact new path
  · obtain ⟨more, finished⟩ := grown.finished
    have later : y ∈ t.finished.flatten := by
      rw [← finished, List.flatten_append]
      exact List.mem_append_right _ old
    exact (List.nodup_append.1 sound.distinct).2.2 y inside y later rfl

/-! ## The edges from one vertex -/

omit [DecidableEq V] in
theorem sound_enter {s : Search V} {v : V} (sound : Sound next s) (fresh : ¬ s.Met v) :
    Sound next (s.enter v) := by
  refine ⟨?_, sound.settled⟩
  rw [enter, List.cons_append, List.nodup_cons]
  exact ⟨fun inside => fresh (List.mem_append.1 inside), sound.distinct⟩

theorem scanned_enter {s : Search V} {v : V} (sound : Sound next s) (fresh : ¬ s.Met v)
    (leads : ∀ y ∈ s.path, Reaches next y v) :
    Scanned next v s [] (s.path.length, s.enter v) where
  sound := sound_enter sound fresh
  grown := Extends.refl _
  reached := by
    rintro y (path | finished)
    · rcases List.mem_cons.1 path with rfl | older
      · exact .inr .refl
      · exact .inl (.inl older)
    · exact .inl (.inr finished)
  bound := le_refl _
  lowest := fun low => absurd low (lt_irrefl _)
  leads := by
    intro y path
    rcases List.mem_cons.1 path with rfl | older
    · exact .refl
    · exact leads y older
  noted := by
    intro y path new other
    rcases List.mem_cons.1 path with same | older
    · exact absurd same other
    · exact absurd older new
  scanned := by simp

theorem Scanned.grown_path {s : Search V} {v : V} {done : List V} {found : Nat × Search V}
    (scan : Scanned next v s done found) : Extends s found.2 :=
  (extends_enter s v).trans scan.grown

/-- The lower of two heights is still that of a vertex of the older path that is reached. -/
theorem Scanned.lowest_min {s : Search V} {v : V} {done : List V} {found : Nat × Search V}
    {height : Nat} (scan : Scanned next v s done found)
    (other : height < s.path.length → ∃ z, s.height? z = some height ∧ Reaches next v z)
    (low : min found.1 height < s.path.length) :
    ∃ z, s.height? z = some (min found.1 height) ∧ Reaches next v z := by
  rcases le_total found.1 height with le | le
  · rw [min_eq_left le] at low ⊢
    exact scan.lowest low
  · rw [min_eq_right le] at low ⊢
    exact other low

theorem Scanned.onPath {s : Search V} {v w : V} {done : List V} {found : Nat × Search V}
    {h : Nat} (scan : Scanned next v s done found) (edge : w ∈ next v)
    (height : found.2.height? w = some h) :
    Scanned next v s (w :: done) (min found.1 h, found.2) := by
  refine { scan with
    bound := (min_le_left _ _).trans scan.bound
    lowest := scan.lowest_min fun low => ?_
    noted := ?_
    scanned := ?_ }
  · exact ⟨w, scan.sound.of_height_lt scan.grown_path height low, .single edge⟩
  · intro y path new other u next
    exact (scan.noted y path new other u next).mono (min_le_left _ _) id
  · intro u member
    rcases List.mem_cons.1 member with rfl | earlier
    · refine ⟨.inl (height?_lt height).1, fun k older => ?_⟩
      have same := scan.sound.height_eq scan.grown_path (height?_lt older).1
      rw [height, older, Option.some.injEq] at same
      exact same ▸ min_le_right _ _
    · exact (scan.scanned u earlier).mono (min_le_left _ _) id

/-- A vertex off the path is noted as soon as it is met: the older path has it neither. -/
theorem Scanned.noted_of_absent {s : Search V} {v w : V} {done : List V}
    {found found' : Nat × Search V} (scan : Scanned next v s done found)
    (absent : w ∉ found.2.path) (met : found'.2.Met w) : Noted s found' w :=
  ⟨met, fun _ older => absurd (scan.grown_path.path.subset (height?_lt older).1) absent⟩

theorem Scanned.toFinished {s : Search V} {v w : V} {done : List V} {found : Nat × Search V}
    (scan : Scanned next v s done found) (absent : w ∉ found.2.path)
    (finished : found.2.isFinished w = true) : Scanned next v s (w :: done) found := by
  refine { scan with scanned := ?_ }
  intro u member
  rcases List.mem_cons.1 member with rfl | earlier
  · exact scan.noted_of_absent absent (.inr (isFinished_iff.1 finished))
  · exact scan.scanned u earlier

/-- An edge to a new vertex, from which the search goes on. -/
theorem Scanned.toNew {s : Search V} {v w : V} {done : List V}
    {found reached : Nat × Search V} (scan : Scanned next v s done found) (edge : w ∈ next v)
    (absent : w ∉ found.2.path) (visited : Visited next w found.2 reached) :
    Scanned next v s (w :: done) (min found.1 reached.1, reached.2) := by
  have step : Reaches next v w := .single edge
  have kept : ∀ x, found.2.Met x → reached.2.Met x := fun x => visited.grown.met
  exact
    { sound := visited.sound
      grown := scan.grown.trans visited.grown
      reached := by
        intro y met
        rcases visited.reached y met with before | path
        · exact scan.reached y before
        · exact .inr (step.trans path)
      bound := (min_le_left _ _).trans scan.bound
      lowest := scan.lowest_min fun low => by
        have longer := scan.grown_path.path.length_le
        obtain ⟨z, height, path⟩ := visited.lowest (low.trans_le longer)
        exact ⟨z, scan.sound.of_height_lt scan.grown_path height low, step.trans path⟩
      leads := by
        intro y path
        by_cases older : y ∈ found.2.path
        · exact scan.leads y older
        · obtain ⟨z, inside, back⟩ := visited.escapes y path older
          exact back.trans (scan.leads z inside)
      noted := by
        intro y path new other u next
        by_cases older : y ∈ found.2.path
        · exact (scan.noted y older new other u next).mono (min_le_left _ _) (kept u)
        · exact ((visited.noted y path older u next).older scan.sound scan.grown_path).mono
            (min_le_right _ _) id
      scanned := by
        intro u member
        rcases List.mem_cons.1 member with rfl | earlier
        · exact scan.noted_of_absent absent visited.met
        · exact (scan.scanned u earlier).mono (min_le_left _ _) (kept u) }

theorem scanned_follow {below : V → Search V → Nat × Search V} {s : Search V} {v w : V}
    {done : List V} {found : Nat × Search V} (scan : Scanned next v s done found)
    (edge : w ∈ next v)
    (search : ¬ found.2.Met w → (∀ y ∈ found.2.path, Reaches next y w) →
      Visited next w found.2 (below w found.2)) :
    Scanned next v s (w :: done) (follow below found w) := by
  unfold follow
  split
  · next h height => exact scan.onPath edge height
  · next unseen =>
      split
      · next finished => exact scan.toFinished (not_mem_path_of_unseen unseen) finished
      · next unfinished =>
          have fresh := not_met_of_unseen unseen unfinished
          exact scan.toNew edge (not_mem_path_of_unseen unseen)
            (search fresh fun y path => (scan.leads y path).tail edge)

theorem scanned_foldl {below : V → Search V → Nat × Search V} {s : Search V} {v : V}
    (search : ∀ w ∈ next v, ∀ t, Sound next t → Extends (s.enter v) t → ¬ t.Met w →
      (∀ y ∈ t.path, Reaches next y w) → Visited next w t (below w t))
    {ws : List V} (edges : ∀ w ∈ ws, w ∈ next v) {done : List V} {found : Nat × Search V}
    (scan : Scanned next v s done found) :
    Scanned next v s (ws.reverse ++ done) (ws.foldl (follow below) found) := by
  induction ws generalizing done found with
  | nil => exact scan
  | cons w ws ih =>
      have edge := edges w List.mem_cons_self
      rw [List.reverse_cons, List.append_assoc, List.foldl_cons]
      exact ih (fun u member => edges u (List.mem_cons_of_mem w member))
        (scanned_follow scan edge (search w edge found.2 scan.sound scan.grown))

/-! ## The end of a search -/

theorem Scanned.settled_close {s : Search V} {v : V} {done inner : List V}
    {found : Nat × Search V} (scan : Scanned next v s done found)
    (all : ∀ w ∈ next v, w ∈ done) (high : s.path.length ≤ found.1)
    (path : found.2.path = inner ++ v :: s.path) :
    Settled next ((inner ++ [v]) :: found.2.finished) := by
  have inside : ∀ u ∈ inner ++ [v], u ∈ found.2.path ∧ u ∉ s.path := by
    intro u member
    have here : u ∈ found.2.path := by
      rw [path, List.append_cons]
      exact List.mem_append_left _ member
    refine ⟨here, fun older => ?_⟩
    have distinct := (List.nodup_append.1 scan.sound.distinct).1
    rw [path, List.append_cons] at distinct
    exact (List.nodup_append.1 distinct).2.2 u member u older rfl
  refine .cons (by simp) ?_ ?_ scan.sound.settled
  · intro u first w second
    have back := scan.leads u (inside u first).1
    have new := scan.sound.fresh_of_new scan.grown_path (inside w second).1 (inside w second).2
    exact back.trans ((scan.reached w (.inl (inside w second).1)).resolve_left new)
  · intro u first w edge
    have noted : Noted s found w := by
      by_cases same : u = v
      · exact scan.scanned w (all w (same ▸ edge))
      · exact scan.noted u (inside u first).1 (inside u first).2 same w edge
    rcases noted.1 with onPath | finished
    · rw [path, List.append_cons, List.mem_append] at onPath
      refine .inl (onPath.resolve_right fun older => ?_)
      -- an edge to the older path would have a number below the height of the vertex
      obtain ⟨h, height⟩ := height?_of_mem older
      have := noted.2 h height
      have := (height?_lt height).2
      omega
    · exact .inr finished

/-- A vertex with a way down the path stays on it. -/
theorem Scanned.visited_low {s : Search V} {v : V} {done : List V} {found : Nat × Search V}
    (scan : Scanned next v s done found) (all : ∀ w ∈ next v, w ∈ done)
    (low : found.1 < s.path.length) : Visited next v s found where
  sound := scan.sound
  grown := scan.grown_path
  met := scan.grown.met (.inl List.mem_cons_self)
  reached := scan.reached
  bound := scan.bound
  lowest := scan.lowest
  escapes := by
    intro y path new
    obtain ⟨z, height, reached⟩ := scan.lowest low
    exact ⟨z, (height?_lt height).1, (scan.leads y path).trans reached⟩
  noted := by
    intro y path new w edge
    by_cases same : y = v
    · exact scan.scanned w (all w (same ▸ edge))
    · exact scan.noted y path new same w edge

/-- A vertex without a way down closes its component. -/
theorem Scanned.visited_high {s : Search V} {v : V} {done : List V} {found : Nat × Search V}
    (scan : Scanned next v s done found) (all : ∀ w ∈ next v, w ∈ done)
    (high : ¬ found.1 < s.path.length) : Visited next v s (found.1, found.2.close v) := by
  obtain ⟨inner, path, apart⟩ := scan.sound.new_path scan.grown
  have absent : v ∉ inner := apart v List.mem_cons_self
  have settled := scan.settled_close all (Nat.le_of_not_lt high) path
  rw [close_of_split path absent]
  exact
    { sound := by
        refine ⟨?_, settled⟩
        have distinct := scan.sound.distinct
        rw [path] at distinct
        refine (List.Perm.nodup_iff ?_).1 distinct
        rw [enter, List.append_cons, List.flatten_cons, ← List.append_assoc]
        exact List.Perm.append_right _ List.perm_append_comm
      grown := ⟨List.suffix_refl _, scan.grown_path.finished.trans (List.suffix_cons _ _)⟩
      met := .inr (by simp)
      reached := by
        rintro y (older | finished)
        · exact .inl (.inl older)
        · apply scan.reached
          rw [Met, path]
          simp only [enter, List.flatten_cons, List.mem_append, List.mem_cons,
            List.not_mem_nil, or_false] at finished ⊢
          tauto
      bound := scan.bound
      lowest := fun low => absurd low high
      escapes := fun y path new => absurd path new
      noted := fun y path new => absurd path new }

theorem Scanned.visited {s : Search V} {v : V} {done : List V} {found : Nat × Search V}
    (scan : Scanned next v s done found) (all : ∀ w ∈ next v, w ∈ done) :
    Visited next v s
      (if found.1 < s.path.length then found else (found.1, found.2.close v)) := by
  split
  · next low => exact scan.visited_low all low
  · next high => exact scan.visited_high all high

end Search

/-- A search with fuel for every vertex that is not met leaves what it should. -/
theorem visited_visit {all : Finset V} (closed : ∀ u ∈ all, ∀ w ∈ next u, w ∈ all)
    {fuel : Nat} : ∀ {v : V} {s : Search V}, v ∈ all → s.Sound next → ¬ s.Met v →
      (∀ y ∈ s.path, Reaches next y v) → (s.left all).card ≤ fuel →
      Search.Visited next v s (visit next fuel v s) := by
  induction fuel with
  | zero =>
      intro v s inside _ fresh _ bound
      have member : v ∈ s.left all := Finset.mem_filter.2 ⟨inside, fresh⟩
      simp [Finset.card_eq_zero.1 (Nat.le_zero.1 bound)] at member
  | succ fuel ih =>
      intro v s inside sound fresh leads bound
      have entered := Search.left_enter inside fresh
      have search : ∀ w ∈ next v, ∀ t, Search.Sound next t → Search.Extends (s.enter v) t →
          ¬ t.Met w → (∀ y ∈ t.path, Reaches next y w) →
          Search.Visited next w t (visit next fuel w t) := by
        intro w edge t sound grown new leads
        have fewer := Search.left_mono all fun _ met => grown.met met
        exact ih (closed v inside w edge) sound new leads (by omega)
      have scan := Search.scanned_foldl search (fun _ edge => edge)
        (Search.scanned_enter sound fresh leads)
      exact scan.visited (by simp)

end CallProfile.Graph
