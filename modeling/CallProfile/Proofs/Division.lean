import CallProfile.Proofs.Calls
import CallProfile.Proofs.Condensation
import CallProfile.Proofs.Order

/-! # The components of a call graph in order

The components divide the symbols by mutual reach. No arc leads from one of them to a later
one, so the numbers of the components fall along the arcs between them and an order with
callers first exists.
-/

namespace CallProfile.CallGraph

open Arc

/-- A division of the symbols of arcs into those that call each other in a circle. -/
structure IsDivision (arcs : List Arc) (parts : List (List Symbol)) : Prop where
  nonempty : ∀ c ∈ parts, c ≠ []
  distinct : parts.flatten.Nodup
  mem_iff : ∀ s, s ∈ parts.flatten ↔ s ∈ symbols arcs
  same_iff : ∀ c ∈ parts, ∀ s ∈ c, ∀ t, t ∈ c ↔ Together arcs s t

/-- Whether all arcs between different ones of some sets of symbols lead forward. -/
def CallersFirst (arcs : List Arc) (parts : List (List Symbol)) : Prop :=
  parts.Pairwise fun earlier later => ∀ u ∈ later, ∀ w ∈ earlier, ¬ Joins arcs u w

variable {arcs : List Arc} {parts : List (List Symbol)}

/-! ## The search for components -/

theorem mem_successorsOf {u w : Symbol} :
    w ∈ Graph.successorsOf (adjacency (merge arcs)) u ↔ Joins arcs u w ∧ w ≠ u := by
  unfold Graph.successorsOf adjacency
  by_cases inside : u ∈ verticesOf (merge arcs)
  · rw [List.lookup_graph _ inside, Option.getD_some, List.mem_map]
    constructor
    · rintro ⟨e, member, rfl⟩
      exact ⟨(mem_calleesOf.1 member).1, (mem_calleesOf.1 member).2.1⟩
    · rintro ⟨joins, other⟩
      exact ⟨(w, calls arcs u w), mem_calleesOf.2 ⟨joins, other, rfl⟩, rfl⟩
  · have missing : ((verticesOf (merge arcs)).map fun s =>
        (s, (calleesOf (merge arcs) s).map (·.1))).lookup u = none := by
      rw [List.lookup_eq_none_iff]
      intro e member
      obtain ⟨s, listed, rfl⟩ := List.mem_map.1 member
      simpa using fun same : u = s => inside (same ▸ listed)
    rw [missing]
    refine iff_of_false (by simp) fun joins => ?_
    exact inside (mem_verticesOf.2 joins.1.mem_symbols.1)

theorem reaches_successorsOf {u w : Symbol} :
    Graph.Reaches (Graph.successorsOf (adjacency (merge arcs))) u w ↔ Reaches arcs u w := by
  constructor
  · intro path
    induction path with
    | refl => exact .refl
    | tail _ edge ih => exact ih.tail (mem_successorsOf.1 edge).1
  · intro path
    induction path with
    | refl => exact .refl
    | @tail x y _ joins ih =>
        by_cases same : y = x
        · exact same ▸ ih
        · exact ih.tail (mem_successorsOf.2 ⟨joins, same⟩)

theorem isDivision_componentsOf (arcs : List Arc) :
    IsDivision arcs (componentsOf (merge arcs)) := by
  have condensed := Graph.isCondensation_components (verticesOf (merge arcs))
    (adjacency (merge arcs))
  refine ⟨condensed.nonempty, condensed.distinct, fun s => ?_, fun c member s inside t => ?_⟩
  · rw [componentsOf, condensed.mem_iff]
    constructor
    · rintro ⟨root, listed, path⟩
      exact (reaches_successorsOf.1 path).mem_symbols (mem_verticesOf.1 listed)
    · exact fun inside => ⟨s, mem_verticesOf.2 inside, .refl⟩
  · rw [condensed.same_iff c member s inside t, reaches_successorsOf, reaches_successorsOf]
    rfl

theorem calleesFirst_componentsOf (arcs : List Arc) :
    (componentsOf (merge arcs)).Pairwise fun earlier later =>
      ∀ u ∈ earlier, ∀ w ∈ later, ¬ Joins arcs u w := by
  have condensed := Graph.isCondensation_components (verticesOf (merge arcs))
    (adjacency (merge arcs))
  have apart := (List.nodup_flatten.1 condensed.distinct).2
  refine (condensed.calleesFirst.and apart).imp ?_
  rintro earlier later ⟨closed, disjoint⟩ u first w second joins
  refine closed u first w second (mem_successorsOf.2 ⟨joins, ?_⟩)
  rintro rfl
  exact disjoint first second

/-! ## Divisions -/

namespace IsDivision

theorem perm {others : List (List Symbol)} (division : IsDivision arcs parts)
    (same : others.Perm parts) : IsDivision arcs others where
  nonempty c member := division.nonempty c (same.mem_iff.1 member)
  distinct := same.flatten.nodup_iff.2 division.distinct
  mem_iff s := same.flatten.mem_iff.trans (division.mem_iff s)
  same_iff c member := division.same_iff c (same.mem_iff.1 member)

theorem exists_part (division : IsDivision arcs parts) {s : Symbol} (inside : s ∈ symbols arcs) :
    ∃ c ∈ parts, s ∈ c :=
  List.mem_flatten.1 ((division.mem_iff s).2 inside)

theorem mem_symbols (division : IsDivision arcs parts) {c : List Symbol} (member : c ∈ parts)
    {s : Symbol} (inside : s ∈ c) : s ∈ symbols arcs :=
  (division.mem_iff s).1 (List.mem_flatten.2 ⟨c, member, inside⟩)

theorem place_unique (division : IsDivision arcs parts) {i j : Nat} {c d : List Symbol}
    (first : parts[i]? = some c) (second : parts[j]? = some d) {s : Symbol} (here : s ∈ c)
    (there : s ∈ d) : i = j := by
  obtain ⟨below, rfl⟩ := List.getElem?_eq_some_iff.1 first
  obtain ⟨below', rfl⟩ := List.getElem?_eq_some_iff.1 second
  have apart := List.pairwise_iff_getElem.1 (List.nodup_flatten.1 division.distinct).2
  rcases Nat.lt_trichotomy i j with less | same | more
  · exact absurd there (apart i j below below' less here)
  · exact same
  · exact absurd here (apart j i below' below more there)

theorem findIdx_eq (division : IsDivision arcs parts) {i : Nat} {c : List Symbol}
    (place : parts[i]? = some c) {s : Symbol} (inside : s ∈ c) :
    parts.findIdx (·.contains s) = i := by
  refine findIdx_of_unique place (by simpa using inside) fun j d place' there => ?_
  exact division.place_unique place' place (by simpa using there) inside

theorem callee_after (division : IsDivision arcs parts) (order : CallersFirst arcs parts)
    {callers callees : List (List Symbol)} {c : List Symbol}
    (split : parts = callers ++ c :: callees) {u v : Symbol} (inside : u ∈ c)
    (joins : Joins arcs u v) (apart : v ∉ c) : ∃ d ∈ callees, v ∈ d := by
  obtain ⟨d, member, here⟩ := division.exists_part joins.mem_symbols.2
  rw [split, List.mem_append, List.mem_cons] at member
  rcases member with earlier | rfl | later
  · rw [CallersFirst, split, List.pairwise_append] at order
    exact absurd joins (order.2.2 d earlier c (by simp) u inside v here)
  · exact absurd here apart
  · exact ⟨d, later, here⟩

/-- Later parts call no earlier ones, also not through others. -/
theorem forward (division : IsDivision arcs parts) (order : CallersFirst arcs parts) :
    parts.Pairwise fun earlier later => ∀ u ∈ later, ∀ w ∈ earlier, ¬ Reaches arcs u w := by
  have closed : ∀ u ∈ parts.flatten, ∀ w, Joins arcs u w → w ∈ parts.flatten :=
    fun u _ w joins => (division.mem_iff w).2 joins.mem_symbols.2
  have distinct := division.distinct
  clear division
  induction parts with
  | nil => exact .nil
  | cons c parts ih =>
      rw [CallersFirst, List.pairwise_cons] at order
      rw [List.flatten_cons, List.nodup_append] at distinct
      have rest : ∀ u ∈ parts.flatten, ∀ w, Joins arcs u w → w ∈ parts.flatten := by
        intro u inside w joins
        obtain ⟨d, member, here⟩ := List.mem_flatten.1 inside
        have whole := closed u (List.mem_append_right c inside) w joins
        rw [List.flatten_cons, List.mem_append] at whole
        exact whole.resolve_left fun first => order.1 d member u here w first joins
      refine .cons (fun d member u inside w first path => ?_) (ih order.2 rest distinct.2.1)
      have last : ∀ x, Reaches arcs u x → x ∈ parts.flatten := by
        intro x path
        induction path with
        | refl => exact List.mem_flatten.2 ⟨d, member, inside⟩
        | tail _ joins before => exact rest _ before _ joins
      exact distinct.2.2 w first w (last w path) rfl

end IsDivision

/-! ## The order of the components -/

theorem mem_componentEdges (division : IsDivision arcs parts) {p : Int × Int} :
    p ∈ componentEdges (merge arcs) parts ↔ ∃ a b : Nat, p = (↑a, ↑b) ∧ a ≠ b ∧
      ∃ c d, parts[a]? = some c ∧ parts[b]? = some d ∧ ∃ u ∈ c, ∃ w ∈ d, Joins arcs u w := by
  rw [componentEdges, List.mem_eraseDups, List.mem_filterMap]
  constructor
  · rintro ⟨⟨u, w⟩, present, chosen⟩
    have joins := mem_keys_merge.1 present
    obtain ⟨c, first, here⟩ := division.exists_part joins.mem_symbols.1
    obtain ⟨d, second, there⟩ := division.exists_part joins.mem_symbols.2
    obtain ⟨a, place⟩ := List.getElem?_of_mem first
    obtain ⟨b, place'⟩ := List.getElem?_of_mem second
    simp only [division.findIdx_eq place here, division.findIdx_eq place' there] at chosen
    split at chosen
    · cases chosen
    · next differ =>
        exact ⟨a, b, (Option.some.inj chosen).symm, differ, c, d, place, place', u, here, w,
          there, joins⟩
  · rintro ⟨a, b, rfl, differ, c, d, place, place', u, here, w, there, joins⟩
    refine ⟨(u, w), mem_keys_merge.2 joins, ?_⟩
    simp only [division.findIdx_eq place here, division.findIdx_eq place' there, if_neg differ]
    rfl

theorem plain_componentEdges (division : IsDivision arcs parts) :
    ∀ p ∈ componentEdges (merge arcs) parts, Graph.IsPlainPair parts.length p := by
  intro p member
  obtain ⟨a, b, same, differ, c, d, place, place', _⟩ := (mem_componentEdges division).1 member
  exact ⟨a, b, same, (List.getElem?_eq_some_iff.1 place).1,
    (List.getElem?_eq_some_iff.1 place').1, differ⟩

theorem falls_componentEdges (division : IsDivision arcs parts)
    (closed : parts.Pairwise fun earlier later =>
      ∀ u ∈ earlier, ∀ w ∈ later, ¬ Joins arcs u w) {a b : Nat}
    (member : ((a : Int), (b : Int)) ∈ componentEdges (merge arcs) parts) : b < a := by
  obtain ⟨a', b', same, differ, c, d, place, place', u, here, w, there, joins⟩ :=
    (mem_componentEdges division).1 member
  simp only [Prod.mk.injEq, Int.natCast_inj] at same
  obtain ⟨rfl, rfl⟩ := same
  obtain ⟨below, rfl⟩ := List.getElem?_eq_some_iff.1 place
  obtain ⟨below', rfl⟩ := List.getElem?_eq_some_iff.1 place'
  by_contra notLess
  have forward := List.pairwise_iff_getElem.1 closed a b below below' (by omega)
  exact forward u here w there joins

/-- An order of the numbers of the parts without edges back is one of the parts. -/
theorem callersFirst_of_order (division : IsDivision arcs parts) {order : List Int}
    (perm : order.Perm (Graph.vertices parts.length))
    (backwards : order.Pairwise fun a b => (b, a) ∉ componentEdges (merge arcs) parts) :
    CallersFirst arcs (order.filterMap fun i => parts[i.toNat]?) := by
  have distinct := perm.nodup_iff.2 (Graph.nodup_vertices _)
  rw [CallersFirst, List.pairwise_filterMap]
  refine (distinct.and backwards).imp_of_mem ?_
  rintro i j first second ⟨differ, apart⟩ c place d place' u here w there joins
  obtain ⟨a, _, rfl⟩ := Graph.mem_vertices.1 (perm.mem_iff.1 first)
  obtain ⟨b, _, rfl⟩ := Graph.mem_vertices.1 (perm.mem_iff.1 second)
  refine apart ((mem_componentEdges division).2 ⟨b, a, rfl, ?_, d, c, place', place, u, here,
    w, there, joins⟩)
  rintro rfl
  exact differ rfl

/-- The components have an order with callers first. -/
theorem inCallOrder_ok (division : IsDivision arcs parts)
    (closed : parts.Pairwise fun earlier later =>
      ∀ u ∈ earlier, ∀ w ∈ later, ¬ Joins arcs u w) :
    ∃ ordered, inCallOrder (merge arcs) parts = .ok ordered ∧ IsDivision arcs ordered ∧
      CallersFirst arcs ordered := by
  obtain ⟨order, found, perm, backwards⟩ := Graph.topologicalOrder_ok
    (plain_componentEdges division) id fun a b => falls_componentEdges division closed
  refine ⟨order.filterMap fun i => parts[i.toNat]?, ?_, division.perm ?_,
    callersFirst_of_order division perm backwards⟩
  · unfold inCallOrder
    rw [found]
    rfl
  · have listed := perm.filterMap fun i => parts[i.toNat]?
    rw [Graph.vertices, List.filterMap_map] at listed
    exact listed.trans (List.Perm.of_eq (filterMap_getElem?_range parts))

end CallProfile.CallGraph
