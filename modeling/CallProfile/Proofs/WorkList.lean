import CallProfile.Graph.Components
import CallProfile.Proofs.Components
import Mathlib.Algebra.BigOperators.Group.Finset.Basic
import Mathlib.Algebra.Order.BigOperators.Group.Finset
import Mathlib.Logic.Function.Iterate

/-! # The search with a list of the vertices under way

The loop goes where the recursion goes. Its stack is the path and its components are the
finished ones; of two vertices on the path the lower one has the lower number, so the lowest
number that is seen from a vertex belongs to the lowest vertex of the path. A vertex is
worked on in the rounds from meeting it to leaving it, which is one round for each edge of it
and of the vertices met in between, and one round for each of these vertices.
-/

namespace CallProfile.Graph

variable {V : Type} [DecidableEq V] {next : V → List V}

namespace Search

/-- What is left of a search from a vertex when all its edges are followed. -/
def settle (s : Search V) (v : V) (found : Nat × Search V) : Nat × Search V :=
  if found.1 < s.path.length then found else (found.1, found.2.close v)

/-- The rounds that the vertices of a set take which are not met. -/
def toGo (next : V → List V) (all : Finset V) (s : Search V) : Nat :=
  ∑ u ∈ s.left all, ((next u).length + 1)

theorem toGo_mono (next : V → List V) {s t : Search V} (all : Finset V)
    (grows : ∀ x, s.Met x → t.Met x) :
    t.toGo next all ≤ s.toGo next all := by
  refine Finset.sum_le_sum_of_subset fun x inside => ?_
  rw [left, Finset.mem_filter] at inside ⊢
  exact ⟨inside.1, fun met => inside.2 (grows x met)⟩

theorem toGo_enter (next : V → List V) {s : Search V} {all : Finset V} {v : V}
    (inside : v ∈ all) (fresh : ¬ s.Met v) :
    (s.enter v).toGo next all + ((next v).length + 1) ≤ s.toGo next all := by
  have absent : v ∉ (s.enter v).left all := by
    rw [left, Finset.mem_filter]
    exact fun member => member.2 (.inl List.mem_cons_self)
  rw [toGo, add_comm, ← Finset.sum_insert (f := fun u => (next u).length + 1) absent]
  refine Finset.sum_le_sum_of_subset fun x member => ?_
  rw [left, Finset.mem_filter]
  rcases Finset.mem_insert.1 member with rfl | later
  · exact ⟨inside, fresh⟩
  · rw [left, Finset.mem_filter] at later
    exact ⟨later.1, fun met => later.2 (met_enter met)⟩

theorem toGo_le {s : Search V} {all : Finset V} {bound : Nat} (few : all.card ≤ bound)
    (short : ∀ u, (next u).length ≤ bound) : s.toGo next all ≤ bound * (bound + 1) :=
  calc
    s.toGo next all ≤ (s.left all).card • (bound + 1) :=
      Finset.sum_le_card_nsmul _ _ _ fun u _ => Nat.succ_le_succ (short u)
    _ ≤ bound * (bound + 1) :=
      Nat.mul_le_mul_right _ ((Finset.card_filter_le _ _).trans few)

theorem height?_inj {s : Search V} {u v : V} {h : Nat} (first : s.height? u = some h)
    (second : s.height? v = some h) : u = v := by
  obtain ⟨above, below, path, absent⟩ := List.eq_append_cons_of_mem (height?_lt first).1
  obtain ⟨above', below', path', absent'⟩ := List.eq_append_cons_of_mem (height?_lt second).1
  rw [height?_of_split path absent, Option.some.injEq] at first
  rw [height?_of_split path' absent', Option.some.injEq] at second
  have same := path.symm.trans path'
  have tails := (List.append_inj' same (by simp [first, second])).2
  exact (List.cons.inj tails).1

theorem height?_enter (s : Search V) (v : V) : (s.enter v).height? v = some s.path.length :=
  height?_of_split (List.nil_append _).symm List.not_mem_nil

theorem met_close_iff {s : Search V} {v x : V} (inside : v ∈ s.path) :
    (s.close v).Met x ↔ s.Met x := by
  refine ⟨fun met => ?_, met_close⟩
  obtain ⟨above, below, path, absent⟩ := List.eq_append_cons_of_mem inside
  rw [close_of_split path absent] at met
  rw [Met, path]
  simp only [Met, List.flatten_cons, List.mem_append, List.mem_cons, List.not_mem_nil,
    or_false] at met ⊢
  tauto

theorem met_settle_iff {s : Search V} {v x : V} {found : Nat × Search V}
    (inside : v ∈ found.2.path) : (s.settle v found).2.Met x ↔ found.2.Met x := by
  unfold settle
  split
  · exact Iff.rfl
  · exact met_close_iff inside

end Search

namespace Work

open Search (Met)

/-- A loop that stands where a search does. -/
structure Tracks (s : Search V) (w : Work V) : Prop where
  stack : w.stack = s.path
  components : w.components = s.finished
  met : ∀ v, s.Met v ↔ ∃ i, w.index v = some i
  earlier : ∀ v i, w.index v = some i → i < w.counter
  ordered : s.path.Pairwise fun upper lower =>
    ∀ i j, w.index upper = some i → w.index lower = some j → j < i

/-- What a loop has noted of a vertex is the number of the vertex at a height. -/
def Notes (s : Search V) (w : Work V) (v : V) (height : Nat) : Prop :=
  ∃ z, s.height? z = some height ∧ w.index z = some (w.low v)

/-- A loop changes nothing that it knows of the vertices that a search has met. -/
def Keeps (s : Search V) (w w' : Work V) : Prop :=
  ∀ x, s.Met x → w'.index x = w.index x ∧ w'.low x = w.low x

omit [DecidableEq V] in
theorem Keeps.trans {s t : Search V} {w w' w'' : Work V} (first : Keeps s w w')
    (second : Keeps t w' w'') (grows : ∀ x, s.Met x → t.Met x) : Keeps s w w'' := by
  intro x met
  obtain ⟨index, low⟩ := first x met
  obtain ⟨index', low'⟩ := second x (grows x met)
  exact ⟨index'.trans index, low'.trans low⟩

namespace Tracks

variable {s : Search V} {w : Work V} {u v : V} {i j h k : Nat}

omit [DecidableEq V] in
theorem start : Tracks ({ path := [], finished := [] } : Search V) Work.start where
  stack := rfl
  components := rfl
  met v := by simp [Met, Work.start]
  earlier := by simp [Work.start]
  ordered := .nil

omit [DecidableEq V] in
theorem index_eq_none_iff (tracks : Tracks s w) : w.index v = none ↔ ¬ s.Met v := by
  rw [tracks.met, Option.eq_none_iff_forall_ne_some, not_exists]

/-- The lower of two vertices on the path has the lower number. -/
theorem lt (tracks : Tracks s w) (lower : s.height? u = some h) (upper : s.height? v = some k)
    (below : h < k) (first : w.index u = some i) (second : w.index v = some j) : i < j := by
  obtain ⟨above, under, path, absent⟩ := List.eq_append_cons_of_mem (Search.height?_lt upper).1
  rw [Search.height?_of_split path absent, Option.some.injEq] at upper
  have ordered := tracks.ordered
  rw [path, List.append_cons, List.pairwise_append] at ordered
  refine ordered.2.2 v (by simp) u ?_ j i second first
  have inside := (Search.height?_lt lower).1
  rw [path, List.append_cons] at inside
  refine (List.mem_append.1 inside).resolve_left fun new => ?_
  have high := Search.height?_of_new (s := { path := under, finished := [] })
    (path.trans (List.append_cons ..)) new lower
  dsimp only at high
  omega

theorem meet (tracks : Tracks s w) (fresh : ¬ s.Met v) :
    Tracks (s.enter v) (w.meet next v) where
  stack := congrArg (v :: ·) tracks.stack
  components := tracks.components
  met x := by
    have old := tracks.met x
    by_cases same : x = v
    · subst same
      simp [Met, Search.enter, Work.meet]
    · have apart : (s.enter v).Met x ↔ s.Met x := by simp [Met, Search.enter, same]
      rw [apart, old]
      simp [Work.meet, same]
  earlier x i number := by
    by_cases same : x = v
    · simp only [Work.meet, same, if_true, Option.some.injEq] at number ⊢
      omega
    · simp only [Work.meet, same, if_false] at number ⊢
      have := tracks.earlier x i number
      omega
  ordered := by
    have apart : ∀ x ∈ s.path, x ≠ v := by
      rintro x inside rfl
      exact fresh (.inl inside)
    refine .cons (fun x inside i j number number' => ?_) ?_
    · simp only [Work.meet, if_true, if_neg (apart x inside), Option.some.injEq]
        at number number'
      exact number ▸ tracks.earlier x j number'
    · refine tracks.ordered.imp_of_mem fun {x y} inside inside' lower i j number number' => ?_
      simp only [Work.meet, if_neg (apart x inside), if_neg (apart y inside')]
        at number number'
      exact lower i j number number'

theorem close (tracks : Tracks s w) (inside : v ∈ s.path) :
    Tracks (s.close v) (w.close v) where
  stack := by rw [Work.close, Search.close, tracks.stack]
  components := by rw [Work.close, Search.close, tracks.stack, tracks.components]
  met x := (Search.met_close_iff inside).trans (tracks.met x)
  earlier := tracks.earlier
  ordered := tracks.ordered.sublist
    ((List.drop_sublist _ _).trans (List.dropWhile_sublist _))

/-- The number of another vertex of the path is noted as its height is. -/
theorem notes_lower (tracks : Tracks s w) (notes : Notes s w v h)
    (height : s.height? u = some k) (number : w.index u = some j) :
    Notes s (w.lower v j) v (min h k) := by
  obtain ⟨z, place, noted⟩ := notes
  have low : (w.lower v j).low v = min (w.low v) j := if_pos rfl
  rw [Notes, low]
  rcases lt_trichotomy h k with below | rfl | above
  · have := tracks.lt place height below noted number
    rw [min_eq_left below.le, min_eq_left this.le]
    exact ⟨z, place, noted⟩
  · obtain rfl := Search.height?_inj place height
    rw [min_self, ← Option.some.inj (noted.symm.trans number), min_self]
    exact ⟨z, place, noted⟩
  · have := tracks.lt height place above number noted
    rw [min_eq_right above.le, min_eq_right this.le]
    exact ⟨u, height, number⟩

end Tracks

/-! ## Leaving a vertex -/

/-- Where a loop stands that works on a vertex, when a search has come as far. -/
structure Scans (v : V) (edges : List V) (rest : List (V × List V)) (found : Nat × Search V)
    (w : Work V) : Prop where
  tracks : Tracks found.2 w
  notes : Notes found.2 w v found.1
  frames : w.frames = (v, edges) :: rest

section Leaving

variable {s : Search V} {v : V} {done : List V} {found : Nat × Search V} {w : Work V}
variable {rest : List (V × List V)}

/-- A vertex closes a component for the loop just when it does for the search. -/
theorem Scans.closes_iff (scans : Scans v [] rest found w)
    (scan : Search.Scanned next v s done found) :
    w.index v = some (w.low v) ↔ ¬ found.1 < s.path.length := by
  obtain ⟨z, place, number⟩ := scans.notes
  have own : found.2.height? v = some s.path.length := by
    rw [scan.sound.height_eq scan.grown List.mem_cons_self, Search.height?_enter]
  constructor
  · intro closes below
    exact absurd (scans.tracks.lt place own below number closes) (lt_irrefl _)
  · intro high
    rw [le_antisymm scan.bound (Nat.le_of_not_lt high)] at place
    obtain rfl := Search.height?_inj place own
    exact number

theorem passOn_index (w : Work V) (v : V) : (w.passOn v).index = w.index := by
  unfold passOn
  split <;> rfl

theorem passOn_frames (w : Work V) (v : V) : (w.passOn v).frames = w.frames := by
  unfold passOn
  split <;> rfl

theorem passOn_low (w : Work V) (v x : V) :
    (w.passOn v).low x =
      if x ∈ w.frames.head?.map (·.1) then min (w.low x) (w.low v) else w.low x := by
  unfold passOn
  split
  · next none => simp [none]
  · next parent edges rest some =>
      by_cases same : x = parent
      · simp [some, lower, same]
      · simp [some, lower, same, Ne.symm same]

theorem Tracks.passOn (tracks : Tracks s w) (v : V) : Tracks s (w.passOn v) := by
  unfold Work.passOn
  split
  · exact tracks
  · exact { tracks with }

/-- A vertex that is left leaves behind what its search does. What was seen from it is passed
    on to the vertex that it was met from. -/
theorem Scans.leave (scans : Scans v [] rest found w)
    (scan : Search.Scanned next v s done found) (apart : v ∉ rest.head?.map (·.1)) :
    (w.step next).frames = rest ∧ Tracks (s.settle v found).2 (w.step next) ∧
      (w.step next).index = w.index ∧
      ∀ x, (w.step next).low x =
        if x ∈ rest.head?.map (·.1) then min (w.low x) (w.low v) else w.low x := by
  let left : Work V := { w with frames := rest }
  have still : Tracks found.2 left := { scans.tracks with }
  have tracks : Tracks found.2 (left.passOn v) := still.passOn v
  have index : (left.passOn v).index = w.index := passOn_index left v
  have frames : (left.passOn v).frames = rest := passOn_frames left v
  have low : ∀ x, (left.passOn v).low x =
      if x ∈ rest.head?.map (·.1) then min (w.low x) (w.low v) else w.low x := passOn_low left v
  have closes : (left.passOn v).index v = some ((left.passOn v).low v) ↔
      ¬ found.1 < s.path.length := by
    rw [index, low, if_neg apart, scans.closes_iff scan]
  have inside : v ∈ found.2.path := scan.grown.path.subset List.mem_cons_self
  have step : w.step next = left.leave v := by
    rw [Work.step, scans.frames]
  rw [step, Work.leave, Search.settle]
  by_cases high : found.1 < s.path.length
  · rw [if_neg fun closed => closes.1 closed high, if_pos high]
    exact ⟨frames, tracks, index, low⟩
  · rw [if_pos (closes.2 high), if_neg high]
    exact ⟨frames, tracks.close inside, index, low⟩

end Leaving

/-! ## Following the edges of a vertex -/

/-- From meeting a vertex until all its edges are followed, a loop goes where the search from
    the vertex goes, in the rounds that the vertices take which are met on the way. -/
def Follows (next : V → List V) (all : Finset V) (v : V) (s : Search V) (w : Work V)
    (reached : Nat × Search V) : Prop :=
  ∃ found rounds, reached = s.settle v found ∧
    Search.Scanned next v s (next v).reverse found ∧
    Scans v [] w.frames found ((step next)^[rounds] (w.meet next v)) ∧
    Keeps s w ((step next)^[rounds] (w.meet next v)) ∧
    rounds + 1 + found.2.toGo next all ≤ s.toGo next all

section Edges

variable {all : Finset V} {s : Search V} {u v : V} {done edges : List V}
variable {found : Nat × Search V} {w : Work V} {rest : List (V × List V)}

theorem Scans.onPath (next : V → List V) {h : Nat} (scans : Scans v (u :: edges) rest found w)
    (fresh : ¬ s.Met v) (height : found.2.height? u = some h) :
    Scans v edges rest (min found.1 h, found.2) (w.step next) ∧ Keeps s w (w.step next) := by
  have inside := (Search.height?_lt height).1
  obtain ⟨j, number⟩ := (scans.tracks.met u).1 (.inl inside)
  have step : w.step next = { w with frames := (v, edges) :: rest }.lower v j := by
    rw [Work.step, scans.frames]
    simp only [follow, number]
    rw [if_pos (scans.tracks.stack ▸ inside)]
  rw [step]
  refine ⟨⟨{ scans.tracks with }, scans.tracks.notes_lower scans.notes height number, rfl⟩, ?_⟩
  intro x met
  refine ⟨rfl, if_neg ?_⟩
  rintro rfl
  exact fresh met

theorem Scans.toFinished (next : V → List V) (s : Search V)
    (scans : Scans v (u :: edges) rest found w) (absent : u ∉ found.2.path) (met : found.2.Met u) :
    Scans v edges rest found (w.step next) ∧ Keeps s w (w.step next) := by
  obtain ⟨j, number⟩ := (scans.tracks.met u).1 met
  have step : w.step next = { w with frames := (v, edges) :: rest } := by
    rw [Work.step, scans.frames]
    simp only [follow, number]
    rw [if_neg (scans.tracks.stack ▸ absent)]
  rw [step]
  exact ⟨⟨{ scans.tracks with }, scans.notes, rfl⟩, fun _ _ => ⟨rfl, rfl⟩⟩

theorem settle_fst (s : Search V) (v : V) (found : Nat × Search V) :
    (s.settle v found).1 = found.1 := by
  unfold Search.settle
  split <;> rfl

/-- Of what is noted of a vertex and of one met from it, the lower number is that of a vertex that
    is still on the path when the second one is left. -/
theorem Scans.exists_lower {done' : List V} {found' : Nat × Search V} {last : Work V}
    {rest' : List (V × List V)} (notes : Notes found.2 w v found.1) (inside : v ∈ found.2.path)
    (scan : Search.Scanned next u found.2 done' found') (all : ∀ x ∈ next u, x ∈ done')
    (scans : Scans u [] rest' found' last) (keeps : Keeps found.2 w last) :
    ∃ y, (found.2.settle u found').2.height? y = some (min found.1 found'.1) ∧
      last.index y = some (min (last.low v) (last.low u)) := by
  obtain ⟨z, place, number⟩ := notes
  obtain ⟨z', place', number'⟩ := scans.notes
  have noted : Notes found'.2 last v found.1 := by
    refine ⟨z, ?_, ?_⟩
    · rw [scan.sound.height_eq scan.grown_path (Search.height?_lt place).1, place]
    · rw [(keeps z (.inl (Search.height?_lt place).1)).1, (keeps v (.inl inside)).2]
      exact number
  obtain ⟨y, height, lowest⟩ := scans.tracks.notes_lower noted place' number'
  -- the lower one is no higher than what was seen before, so closing leaves its vertex in place
  have below : min found.1 found'.1 < found.2.path.length :=
    (min_le_left _ _).trans_lt (Search.height?_lt place).2
  have older := scan.sound.of_height_lt scan.grown_path height below
  have visited := scan.visited all
  refine ⟨y, ?_, by simpa [lower] using lowest⟩
  exact (visited.sound.height_eq visited.grown (Search.height?_lt older).1).trans older

/-- An edge to a new vertex, which is left before the next edge is followed. -/
theorem Scans.toNew {reached : Nat × Search V} (scans : Scans v (u :: edges) rest found w)
    (scan : Search.Scanned next v s done found) (fresh : ¬ s.Met v) (new : ¬ found.2.Met u)
    (follows : Follows next all u found.2 { w with frames := (v, edges) :: rest } reached) :
    ∃ rounds, Scans v edges rest (min found.1 reached.1, reached.2) ((step next)^[rounds] w) ∧
      Keeps s w ((step next)^[rounds] w) ∧
      rounds + reached.2.toGo next all ≤ found.2.toGo next all + 1 := by
  obtain ⟨found', rounds, rfl, scan', scans', keeps, few⟩ := follows
  have first : w.step next = { w with frames := (v, edges) :: rest }.meet next u := by
    rw [Work.step, scans.frames]
    simp only [follow, scans.tracks.index_eq_none_iff.2 new]
  rw [← first, ← Function.iterate_succ_apply] at scans' keeps
  have inside : v ∈ found.2.path := scan.grown.path.subset List.mem_cons_self
  have apart : u ∉ ((v, edges) :: rest).head?.map (·.1) := by
    intro same
    obtain rfl : v = u := by simpa using same
    exact new (.inl inside)
  obtain ⟨frames, tracks, index, low⟩ := scans'.leave scan' apart
  rw [← Function.iterate_succ_apply' (f := step next)] at frames tracks index low
  generalize (step next)^[rounds + 1] w = last at scans' keeps index low
  refine ⟨rounds + 1 + 1, ⟨tracks, ?_, frames⟩, fun x met => ?_, ?_⟩
  · obtain ⟨y, height, lowest⟩ :=
      Scans.exists_lower scans.notes inside scan' (by simp) scans' keeps
    refine ⟨y, ?_, ?_⟩
    · rw [settle_fst]
      exact height
    · rw [index, low, if_pos (by simp)]
      exact lowest
  · have grown := scan.grown_path.met met
    have other : ¬ x = v := by
      rintro rfl
      exact fresh met
    rw [index, low, if_neg (by simpa using Ne.symm other)]
    exact keeps x grown
  · have grows : ∀ x, found'.2.Met x → (found.2.settle u found').2.Met x := fun x =>
      (Search.met_settle_iff (scan'.grown.path.subset List.mem_cons_self)).2
    have fewer := Search.toGo_mono next all grows
    omega

theorem Scans.exists_rounds {below : V → Search V → Nat × Search V}
    (scans : Scans v (u :: edges) rest found w) (scan : Search.Scanned next v s done found)
    (fresh : ¬ s.Met v) (edge : u ∈ next v)
    (search : ¬ found.2.Met u → (∀ y ∈ found.2.path, Reaches next y u) →
      ∀ w', Tracks found.2 w' → Follows next all u found.2 w' (below u found.2)) :
    ∃ rounds, Scans v edges rest (Graph.follow below found u) ((step next)^[rounds] w) ∧
      Keeps s w ((step next)^[rounds] w) ∧
      rounds + (Graph.follow below found u).2.toGo next all ≤ found.2.toGo next all + 1 := by
  unfold Graph.follow
  split
  · next h height =>
      obtain ⟨scans', keeps⟩ := scans.onPath next fresh height
      exact ⟨1, scans', keeps, (Nat.add_comm ..).le⟩
  · next unseen =>
      have absent := Search.not_mem_path_of_unseen unseen
      split
      · next finished =>
          have met : found.2.Met u := .inr (Search.isFinished_iff.1 finished)
          obtain ⟨scans', keeps⟩ := scans.toFinished next s absent met
          exact ⟨1, scans', keeps, (Nat.add_comm ..).le⟩
      · next unfinished =>
          have new := Search.not_met_of_unseen unseen unfinished
          exact scans.toNew scan fresh new
            (search new (fun y path => (scan.leads y path).tail edge) _ { scans.tracks with })

theorem Scans.exists_rounds_foldl {below : V → Search V → Nat × Search V}
    (search : ∀ u ∈ next v, ∀ t, Search.Sound next t → Search.Extends (s.enter v) t →
      ¬ t.Met u → (∀ y ∈ t.path, Reaches next y u) →
      ∀ w', Tracks t w' → Follows next all u t w' (below u t))
    (inside : ∀ u ∈ edges, u ∈ next v) (scans : Scans v edges rest found w)
    (scan : Search.Scanned next v s done found) (fresh : ¬ s.Met v) :
    Search.Scanned next v s (edges.reverse ++ done) (edges.foldl (Graph.follow below) found) ∧
      ∃ rounds,
        Scans v [] rest (edges.foldl (Graph.follow below) found) ((step next)^[rounds] w) ∧
        Keeps s w ((step next)^[rounds] w) ∧
        rounds + (edges.foldl (Graph.follow below) found).2.toGo next all ≤
          found.2.toGo next all + edges.length := by
  induction edges generalizing done found w with
  | nil => exact ⟨scan, 0, scans, fun _ _ => ⟨rfl, rfl⟩, (Nat.zero_add _).le⟩
  | cons u edges ih =>
      have edge := inside u List.mem_cons_self
      have below_follows := search u edge found.2 scan.sound scan.grown
      obtain ⟨rounds, scans', keeps, few⟩ := scans.exists_rounds scan fresh edge below_follows
      have scan' : Search.Scanned next v s (u :: done) (Graph.follow below found u) := by
        refine Search.scanned_follow scan edge fun new leads => ?_
        obtain ⟨found', _, same, scanned, -⟩ :=
          below_follows new leads w scans.tracks
        rw [same]
        exact scanned.visited (by simp)
      obtain ⟨whole, rounds', scans'', keeps', few'⟩ :=
        ih (fun x member => inside x (List.mem_cons_of_mem u member)) scans' scan'
      rw [List.reverse_cons, List.append_assoc, List.foldl_cons]
      rw [← Function.iterate_add_apply] at scans'' keeps'
      refine ⟨whole, rounds' + rounds, scans'', keeps.trans keeps' fun _ => id, ?_⟩
      rw [List.length_cons]
      omega

/-- A loop works on a vertex as the search from it does. -/
theorem follows_visit (closed : ∀ u ∈ all, ∀ w ∈ next u, w ∈ all) {fuel : Nat} :
    ∀ {v : V} {s : Search V}, v ∈ all → s.Sound next → ¬ s.Met v →
      (∀ y ∈ s.path, Reaches next y v) → (s.left all).card ≤ fuel →
      ∀ w, Tracks s w → Follows next all v s w (visit next fuel v s) := by
  induction fuel with
  | zero =>
      intro v s inside _ fresh _ bound
      have member : v ∈ s.left all := Finset.mem_filter.2 ⟨inside, fresh⟩
      simp [Finset.card_eq_zero.1 (Nat.le_zero.1 bound)] at member
  | succ fuel ih =>
      intro v s inside sound fresh leads bound w tracks
      -- one vertex less is left to meet below this one, so less fuel does there
      have entered := Search.left_enter inside fresh
      have search : ∀ u ∈ next v, ∀ t, Search.Sound next t → Search.Extends (s.enter v) t →
          ¬ t.Met u → (∀ y ∈ t.path, Reaches next y u) →
          ∀ w', Tracks t w' → Follows next all u t w' (visit next fuel u t) := by
        intro u edge t sound grown new leads
        have fewer := Search.left_mono all fun _ met => grown.met met
        exact ih (closed v inside u edge) sound new leads (by omega)
      have first : Scans v (next v) w.frames (s.path.length, s.enter v) (w.meet next v) :=
        ⟨tracks.meet fresh,
          ⟨v, Search.height?_enter s v, (if_pos rfl).trans (congrArg some (if_pos rfl).symm)⟩,
          rfl⟩
      obtain ⟨scan, rounds, scans, keeps, few⟩ := first.exists_rounds_foldl search
        (fun _ => id) (Search.scanned_enter sound fresh leads) fresh
      rw [List.append_nil] at scan
      refine ⟨_, rounds, rfl, scan, scans, fun x met => ?_, ?_⟩
      · have other : x ≠ v := by
          rintro rfl
          exact fresh met
        obtain ⟨index, low⟩ := keeps x met
        exact ⟨index.trans (if_neg other), low.trans (if_neg other)⟩
      · have := Search.toGo_enter next inside fresh
        dsimp only at few
        omega

end Edges

/-! ## A search that is done -/

theorem step_idle {w : Work V} (idle : w.frames = []) : w.step next = w := by
  rw [step, idle]

theorem run_eq_iterate (rounds : Nat) (w : Work V) :
    w.run next rounds = (step next)^[rounds] w := by
  induction rounds generalizing w with
  | zero => rfl
  | succ rounds ih =>
      rw [run]
      split
      · next idle =>
          exact (Function.iterate_fixed (step_idle (List.isEmpty_iff.1 idle)) _).symm
      · rw [ih, Function.iterate_succ_apply]

/-- More rounds than a search takes change nothing. -/
theorem run_eq {rounds most : Nat} {w : Work V} (enough : rounds ≤ most)
    (idle : ((step next)^[rounds] w).frames = []) :
    w.run next most = (step next)^[rounds] w := by
  obtain ⟨extra, rfl⟩ := Nat.exists_eq_add_of_le' enough
  rw [run_eq_iterate, Function.iterate_add_apply]
  exact Function.iterate_fixed (step_idle idle) _

/-- A loop that starts from a vertex ends where the search from it does. -/
theorem exists_run {all : Finset V} {s : Search V} {v : V} {w : Work V}
    {reached : Nat × Search V} (follows : Follows next all v s w reached) (idle : w.frames = [])
    {rounds : Nat} (enough : s.toGo next all ≤ rounds) :
    ((w.meet next v).run next rounds).frames = [] ∧
      Tracks reached.2 ((w.meet next v).run next rounds) := by
  obtain ⟨found, some, rfl, scan, scans, -, few⟩ := follows
  rw [idle] at scans
  obtain ⟨frames, tracks, -⟩ := scans.leave scan (by simp)
  rw [← Function.iterate_succ_apply' (f := step next)] at frames tracks
  rw [run_eq (by omega) frames]
  exact ⟨frames, tracks⟩

end Work

end CallProfile.Graph
