import CallProfile.Proofs.WorkList

/-! # Condensing a graph

The components that the search of a whole graph ends with: they divide what the vertices
reach, and an edge between two of them leads to the one that was finished first.
-/

namespace CallProfile.Graph

variable {V : Type}

/-- The division of what some vertices reach into components. Each vertex is in one of them
    once, two vertices are in one when each reaches the other, and no edge leads from a
    component to a later one. -/
structure IsCondensation (next : V → List V) (roots : List V) (parts : List (List V)) :
    Prop where
  nonempty : ∀ c ∈ parts, c ≠ []
  distinct : parts.flatten.Nodup
  mem_iff : ∀ v, v ∈ parts.flatten ↔ ∃ root ∈ roots, Reaches next root v
  same_iff : ∀ c ∈ parts, ∀ u ∈ c, ∀ w, w ∈ c ↔ Reaches next u w ∧ Reaches next w u
  calleesFirst : parts.Pairwise fun earlier later => ∀ u ∈ earlier, ∀ w ∈ later, w ∉ next u

namespace Settled

variable {next : V → List V} {parts : List (List V)}

theorem edge_closed (settled : Settled next parts) {u w : V} (inside : u ∈ parts.flatten)
    (edge : w ∈ next u) : w ∈ parts.flatten := by
  induction settled with
  | nil => simp at inside
  | cons _ _ closed _ ih =>
      rw [List.flatten_cons, List.mem_append] at inside ⊢
      rcases inside with first | older
      · exact closed u first w edge
      · exact .inr (ih older)

theorem closed (settled : Settled next parts) {u w : V} (inside : u ∈ parts.flatten)
    (path : Reaches next u w) : w ∈ parts.flatten := by
  induction path with
  | refl => exact inside
  | tail _ edge ih => exact settled.edge_closed ih edge

theorem nonempty (settled : Settled next parts) : ∀ c ∈ parts, c ≠ [] := by
  induction settled with
  | nil => simp
  | cons nonempty _ _ _ ih => simpa using ⟨nonempty, ih⟩

theorem same_iff (settled : Settled next parts) (distinct : parts.flatten.Nodup) :
    ∀ c ∈ parts, ∀ u ∈ c, ∀ w, w ∈ c ↔ Reaches next u w ∧ Reaches next w u := by
  induction settled with
  | nil => simp
  | @cons first older nonempty joined closes rest ih =>
      rw [List.flatten_cons, List.nodup_append] at distinct
      intro c member u inside w
      rcases List.mem_cons.1 member with rfl | later
      · refine ⟨fun here => ⟨joined u inside w here, joined w here u inside⟩, ?_⟩
        rintro ⟨out, back⟩
        have whole := (Settled.cons nonempty joined closes rest).closed
          (List.mem_append_left older.flatten inside) out
        refine (List.mem_append.1 whole).resolve_right fun there => ?_
        exact distinct.2.2 u inside u (rest.closed there back) rfl
      · exact ih distinct.2.1 c later u inside w

theorem calleesFirst (settled : Settled next parts) (distinct : parts.flatten.Nodup) :
    parts.reverse.Pairwise fun earlier later => ∀ u ∈ earlier, ∀ w ∈ later, w ∉ next u := by
  rw [List.pairwise_reverse]
  induction settled with
  | nil => exact .nil
  | @cons first older _ _ _ rest ih =>
      rw [List.flatten_cons, List.nodup_append] at distinct
      refine .cons (fun c member u inside w here edge => ?_) (ih distinct.2.1)
      have there := rest.edge_closed (List.mem_flatten_of_mem member inside) edge
      exact distinct.2.2 w here w there rfl

end Settled

variable [DecidableEq V] {next : V → List V}

/-- Where a search stands between two of the vertices that it starts from. -/
structure Swept (next : V → List V) (roots : List V) (s : Search V) : Prop where
  sound : s.Sound next
  idle : s.path = []
  covered : ∀ v ∈ roots, v ∈ s.finished.flatten
  reached : ∀ v ∈ s.finished.flatten, ∃ root ∈ roots, Reaches next root v

namespace Swept

variable {all : Finset V} {fuel : Nat} {roots : List V} {s : Search V} {v : V}

omit [DecidableEq V] in
theorem start (next : V → List V) : Swept next [] { path := [], finished := [] } where
  sound := ⟨.nil, .nil⟩
  idle := rfl
  covered := by simp
  reached := by simp

theorem fresh (swept : Swept next roots s) (unfinished : ¬ s.isFinished v = true) :
    ¬ s.Met v := by
  rintro (path | finished)
  · simp [swept.idle] at path
  · exact unfinished (Search.isFinished_iff.2 finished)

theorem sweep_fuel (closed : ∀ u ∈ all, ∀ w ∈ next u, w ∈ all) (enough : all.card ≤ fuel)
    (swept : Swept next roots s) (inside : v ∈ all) (extra : Nat) :
    sweep next (fuel + extra) s v = sweep next fuel s v := by
  unfold sweep
  split
  · rfl
  · next unfinished =>
      have bound : (s.left all).card ≤ fuel := (Finset.card_filter_le _ _).trans enough
      rw [visit_fuel closed extra inside (swept.fresh unfinished) bound]

theorem sweep (closed : ∀ u ∈ all, ∀ w ∈ next u, w ∈ all) (enough : all.card ≤ fuel)
    (swept : Swept next roots s) (inside : v ∈ all) :
    Swept next (v :: roots) (sweep next fuel s v) := by
  unfold Graph.sweep
  split
  · next finished =>
      refine { swept with covered := ?_, reached := ?_ }
      · intro y listed
        rcases List.mem_cons.1 listed with rfl | earlier
        · exact Search.isFinished_iff.1 finished
        · exact swept.covered y earlier
      · intro y member
        obtain ⟨root, listed, path⟩ := swept.reached y member
        exact ⟨root, List.mem_cons_of_mem v listed, path⟩
  · next unfinished =>
      have bound : (s.left all).card ≤ fuel := (Finset.card_filter_le _ _).trans enough
      have visited := visited_visit closed inside swept.sound (swept.fresh unfinished)
        (by simp [swept.idle]) bound
      have idle : (visit next fuel v s).2.path = [] := by
        refine List.eq_nil_iff_forall_not_mem.2 fun y path => ?_
        obtain ⟨z, older, _⟩ := visited.escapes y path (by simp [swept.idle])
        simp [swept.idle] at older
      have finished : ∀ y, (visit next fuel v s).2.Met y →
          y ∈ (visit next fuel v s).2.finished.flatten := by
        intro y met
        exact met.resolve_left (by simp [idle])
      refine ⟨visited.sound, idle, ?_, ?_⟩
      · intro y listed
        rcases List.mem_cons.1 listed with rfl | earlier
        · exact finished y visited.met
        · exact finished y (visited.grown.met (.inr (swept.covered y earlier)))
      · intro y member
        rcases visited.reached y (.inr member) with (path | old) | path
        · simp [swept.idle] at path
        · obtain ⟨root, listed, path⟩ := swept.reached y old
          exact ⟨root, List.mem_cons_of_mem v listed, path⟩
        · exact ⟨v, List.mem_cons_self, path⟩

/-- A whole sweep covers its vertices, and more fuel changes nothing. -/
theorem foldl_sweep (closed : ∀ u ∈ all, ∀ w ∈ next u, w ∈ all) (enough : all.card ≤ fuel)
    (swept : Swept next roots s) {vs : List V} (inside : ∀ v ∈ vs, v ∈ all) :
    Swept next (vs.reverse ++ roots) (vs.foldl (Graph.sweep next fuel) s) ∧
      ∀ extra, vs.foldl (Graph.sweep next (fuel + extra)) s =
        vs.foldl (Graph.sweep next fuel) s := by
  induction vs generalizing roots s with
  | nil => exact ⟨swept, fun _ => rfl⟩
  | cons v vs ih =>
      have first := inside v List.mem_cons_self
      have rest := ih (swept.sweep closed enough first)
        (fun u member => inside u (List.mem_cons_of_mem v member))
      refine ⟨?_, fun extra => ?_⟩
      · rw [List.reverse_cons, List.append_assoc]
        exact rest.1
      · rw [List.foldl_cons, List.foldl_cons, swept.sweep_fuel closed enough first extra]
        exact rest.2 extra

/-- A loop that goes through the same vertices finds the same components. -/
theorem tracks_foldl_search (closed : ∀ u ∈ all, ∀ w ∈ next u, w ∈ all)
    (enough : all.card ≤ fuel) {rounds : Nat} (ample : ∀ t : Search V, t.toGo next all ≤ rounds)
    (swept : Swept next roots s) {vs : List V} (inside : ∀ v ∈ vs, v ∈ all) {w : Work V}
    (idle : w.frames = []) (tracks : Work.Tracks s w) :
    (vs.foldl (Work.search next rounds) w).frames = [] ∧
      Work.Tracks (vs.foldl (Graph.sweep next fuel) s)
        (vs.foldl (Work.search next rounds) w) := by
  induction vs generalizing roots s w with
  | nil => exact ⟨idle, tracks⟩
  | cons v vs ih =>
      have first := inside v List.mem_cons_self
      have step : (w.search next rounds v).frames = [] ∧
          Work.Tracks (Graph.sweep next fuel s v) (w.search next rounds v) := by
        unfold Work.search Graph.sweep
        by_cases met : s.Met v
        · obtain ⟨i, number⟩ := (tracks.met v).1 met
          have finished := met.resolve_left (by simp [swept.idle])
          rw [if_pos (by rw [number]; rfl), if_pos (Search.isFinished_iff.2 finished)]
          exact ⟨idle, tracks⟩
        · have unfinished : ¬ s.isFinished v = true := fun finished =>
            met (.inr (Search.isFinished_iff.1 finished))
          have bound : (s.left all).card ≤ fuel := (Finset.card_filter_le _ _).trans enough
          have follows := Work.follows_visit closed first swept.sound met
            (by simp [swept.idle]) bound w tracks
          rw [if_neg (by simp [tracks.index_eq_none_iff.2 met]), if_neg unfinished]
          exact Work.exists_run follows idle (ample s)
      exact ih (swept.sweep closed enough first)
        (fun u member => inside u (List.mem_cons_of_mem v member)) step.1 step.2

omit [DecidableEq V] in
theorem isCondensation (swept : Swept next roots s) :
    IsCondensation next roots s.finished.reverse := by
  have distinct : s.finished.flatten.Nodup := (List.nodup_append.1 swept.sound.distinct).2.1
  have settled := swept.sound.settled
  have flat : s.finished.reverse.flatten.Perm s.finished.flatten :=
    s.finished.reverse_perm.flatten
  refine ⟨?_, flat.nodup_iff.2 distinct, fun v => ?_, ?_, settled.calleesFirst distinct⟩
  · intro c member
    exact settled.nonempty c (List.mem_reverse.1 member)
  · rw [flat.mem_iff]
    refine ⟨swept.reached v, ?_⟩
    rintro ⟨root, listed, path⟩
    exact settled.closed (swept.covered root listed) path
  · intro c member
    exact settled.same_iff distinct c (List.mem_reverse.1 member)

end Swept

/-- The vertices that a search can come across: those given and those that edges lead to. -/
def vertexSet (vertices : List V) (successors : List (V × List V)) : Finset V :=
  (vertices ++ successors.flatMap (·.2)).toFinset

theorem mem_vertexSet_of_edge (vertices : List V) {successors : List (V × List V)} {u w : V}
    (edge : w ∈ successorsOf successors u) : w ∈ vertexSet vertices successors := by
  unfold successorsOf at edge
  cases found : successors.lookup u with
  | none => simp [found] at edge
  | some ws =>
      obtain ⟨before, after, rfl, _⟩ := List.lookup_eq_some_iff.1 found
      simp only [found, Option.getD_some] at edge
      simp [vertexSet, edge]

theorem vertexSet_card_le (vertices : List V) (successors : List (V × List V)) :
    (vertexSet vertices successors).card ≤ depthBound vertices successors :=
  List.toFinset_card_le _

theorem length_successorsOf_le (vertices : List V) (successors : List (V × List V)) (v : V) :
    (successorsOf successors v).length ≤ depthBound vertices successors := by
  rw [depthBound, List.length_append, successorsOf]
  cases found : successors.lookup v with
  | none => exact Nat.zero_le _
  | some ws =>
      obtain ⟨before, after, rfl, _⟩ := List.lookup_eq_some_iff.1 found
      simp only [Option.getD_some, List.flatMap_append, List.flatMap_cons, List.length_append]
      omega

theorem swept_searchAll (vertices : List V) (successors : List (V × List V)) :
    Swept (successorsOf successors) vertices.reverse
        (searchAll (successorsOf successors) (depthBound vertices successors) vertices) ∧
      ∀ extra, searchAll (successorsOf successors)
          (depthBound vertices successors + extra) vertices =
        searchAll (successorsOf successors) (depthBound vertices successors) vertices := by
  have inside : ∀ v ∈ vertices, v ∈ vertexSet vertices successors := by
    intro v listed
    simp [vertexSet, listed]
  have swept := Swept.foldl_sweep (fun _ _ _ edge => mem_vertexSet_of_edge vertices edge)
    (vertexSet_card_le vertices successors) (Swept.start (successorsOf successors)) inside
  rwa [List.append_nil] at swept

/-- The loop ends within the rounds that it is given, where the recursion ends. -/
theorem tracks_searchAll (vertices : List V) (successors : List (V × List V)) {rounds : Nat}
    (enough : roundBound vertices successors ≤ rounds) :
    (Work.searchAll (successorsOf successors) rounds vertices).frames = [] ∧
      Work.Tracks
        (searchAll (successorsOf successors) (depthBound vertices successors) vertices)
        (Work.searchAll (successorsOf successors) rounds vertices) := by
  have few := vertexSet_card_le vertices successors
  have ample : ∀ t : Search V,
      t.toGo (successorsOf successors) (vertexSet vertices successors) ≤ rounds := fun _ =>
    (Search.toGo_le few (length_successorsOf_le vertices successors)).trans enough
  exact (Swept.start (successorsOf successors)).tracks_foldl_search
    (fun _ _ _ edge => mem_vertexSet_of_edge vertices edge) few ample
    (fun v listed => by simp [vertexSet, listed]) rfl Work.Tracks.start

theorem components_eq (vertices : List V) (successors : List (V × List V)) :
    components vertices successors =
      (searchAll (successorsOf successors) (depthBound vertices successors)
        vertices).finished.reverse := by
  rw [components, (tracks_searchAll vertices successors (le_refl _)).2.components]

theorem isCondensation_components (vertices : List V) (successors : List (V × List V)) :
    IsCondensation (successorsOf successors) vertices (components vertices successors) := by
  have condensed := (swept_searchAll vertices successors).1.isCondensation
  rw [components_eq]
  refine { condensed with mem_iff := fun v => ?_ }
  rw [condensed.mem_iff]
  simp

/-- The components of any graph divide the vertices that the given ones reach, by mutual
    reach and callees first. The search ends within its rounds: one that may take more finds
    the same. So does the recursion, which runs no deeper than the bound. -/
theorem components_partition_reachable (vertices : List V) (successors : List (V × List V)) :
    IsCondensation (successorsOf successors) vertices (components vertices successors) ∧
      (∀ rounds, roundBound vertices successors ≤ rounds →
        (Work.searchAll (successorsOf successors) rounds vertices).frames = [] ∧
        (Work.searchAll (successorsOf successors) rounds vertices).components.reverse =
          components vertices successors) ∧
      ∀ depth, depthBound vertices successors ≤ depth →
        (searchAll (successorsOf successors) depth vertices).finished.reverse =
          components vertices successors := by
  refine ⟨isCondensation_components vertices successors, fun rounds enough => ?_,
    fun depth deep => ?_⟩
  · obtain ⟨idle, tracks⟩ := tracks_searchAll vertices successors enough
    exact ⟨idle, by rw [components_eq, tracks.components]⟩
  · obtain ⟨extra, rfl⟩ := Nat.exists_eq_add_of_le deep
    rw [(swept_searchAll vertices successors).2 extra, components_eq]

end CallProfile.Graph
