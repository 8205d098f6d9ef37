import CallProfile.Proofs.Order
import CallProfile.Proofs.Sorting
import Mathlib.Logic.Relation

/-! # Graphs that have an order

A graph has an order when none of its edges lead in a circle, and only then: along a circle every
vertex would have to be before itself. Without a circle the vertices that one reaches become fewer
along every edge, so no edge waits for ever. How the edges are listed does not show in the order,
as those from one vertex are taken away by the numbers of their targets.
-/

namespace CallProfile.Graph

variable {count : Nat} {pairs others : List (Int × Int)}

/-- Whether all edges join numbers of vertices below a count. -/
def Below (count : Nat) (pairs : List (Int × Int)) : Prop :=
  ∀ p ∈ pairs, (0 ≤ p.1 ∧ p.1 < count) ∧ 0 ≤ p.2 ∧ p.2 < count

/-- Whether edges lead from one vertex to another, at least one of them. -/
abbrev Leads (pairs : List (Int × Int)) : Int → Int → Prop :=
  Relation.TransGen fun a b => (a, b) ∈ pairs

/-- Whether edges lead from a vertex back to it. One edge does when it is a loop. -/
def HasCircle (pairs : List (Int × Int)) : Prop :=
  ∃ v, Leads pairs v v

theorem Below.plain (below : Below count pairs) (loopless : ∀ a, (a, a) ∉ pairs) :
    ∀ p ∈ pairs, IsPlainPair count p := by
  rintro ⟨a, b⟩ member
  obtain ⟨⟨low, high⟩, low', high'⟩ := below (a, b) member
  have differ : a ≠ b := fun same => loopless b (same ▸ member)
  lift a to Nat using low
  lift b to Nat using low'
  exact ⟨a, b, rfl, Int.ofNat_lt.1 high, Int.ofNat_lt.1 high', by omega⟩

/-! ## Loops -/

/-- The first loop among edges stops the search before it starts. -/
theorem edgesAfter_loop (below : Below count pairs) {a : Int} (loop : (a, a) ∈ pairs)
    (before : List Edge) :
    ∃ a, edgesAfter count before pairs = .error (.inconsistent (.selfLoop a)) := by
  induction pairs generalizing before with
  | nil => cases loop
  | cons p pairs ih =>
      obtain ⟨u, w⟩ := p
      by_cases same : u = w
      · exact ⟨u, by rw [edgesAfter, if_pos same]⟩
      · obtain ⟨⟨low, high⟩, low', high'⟩ := below (u, w) List.mem_cons_self
        have rest : Below count pairs := fun q member => below q (List.mem_cons_of_mem _ member)
        have later : (a, a) ∈ pairs := by
          rcases List.mem_cons.1 loop with first | later
          · cases first
            exact absurd rfl same
          · exact later
        lift u to Nat using low
        lift w to Nat using low'
        simp only [edgesAfter, same, if_false, vertex?_natCast (Int.ofNat_lt.1 high),
          vertex?_natCast (Int.ofNat_lt.1 high')]
        exact ih rest later _

/-! ## Circles -/

theorem idxOf_lt_of_pairwise {order : List Int} (forward : order.Pairwise fun a b => (b, a) ∉ pairs)
    {a b : Int} (first : a ∈ order) (second : b ∈ order) (differ : a ≠ b) (edge : (a, b) ∈ pairs) :
    order.idxOf a < order.idxOf b := by
  have inside := List.idxOf_lt_length_iff.2 first
  have inside' := List.idxOf_lt_length_iff.2 second
  rcases Nat.lt_trichotomy (order.idxOf a) (order.idxOf b) with less | same | more
  · exact less
  · exact absurd ((List.idxOf_inj first).1 same) differ
  · have apart := List.pairwise_iff_getElem.1 forward _ _ inside' inside more
    rw [List.getElem_idxOf, List.getElem_idxOf] at apart
    exact absurd edge apart

theorem not_hasCircle_of_forward {order : List Int}
    (forward : ∀ p ∈ pairs, order.idxOf p.1 < order.idxOf p.2) : ¬ HasCircle pairs := by
  rintro ⟨v, circle⟩
  have rises : ∀ w, Leads pairs v w → order.idxOf v < order.idxOf w := by
    intro w path
    induction path with
    | single edge => exact forward _ edge
    | tail _ edge ih => exact ih.trans (forward _ edge)
  exact lt_irrefl _ (rises v circle)

/-- Without a circle a vertex reaches more vertices than those that its edges lead to. -/
theorem exists_rank (below : Below count pairs) (acyclic : ¬ HasCircle pairs) :
    ∃ rank : Nat → Nat, ∀ a b : Nat, ((a : Int), (b : Int)) ∈ pairs → rank b < rank a := by
  classical
  refine ⟨fun v => ((Finset.range count).filter fun w : Nat => Leads pairs v w).card,
    fun a b edge => ?_⟩
  -- what `b` reaches, `a` reaches by way of `b`; and `b` does not reach itself
  refine Finset.card_lt_card (Finset.ssubset_iff_of_subset ?_ |>.2 ⟨b, ?_, ?_⟩)
  · intro w reached
    rw [Finset.mem_filter] at reached ⊢
    exact ⟨reached.1, .head edge reached.2⟩
  · rw [Finset.mem_filter, Finset.mem_range]
    exact ⟨Int.ofNat_lt.1 (below _ edge).2.2, .single edge⟩
  · rw [Finset.mem_filter]
    exact fun reached => acyclic ⟨b, reached.2⟩

/-! ## How edges are listed -/

namespace Schedule

/-- Whether two schedules differ in nothing but the order of their edges. -/
structure Relisted (o o' : Schedule) : Prop where
  ready : o.ready = o'.ready
  edges : o.edges.Perm o'.edges

/-- Whether the edges from one vertex have different names. -/
def NamesApart (edges : List Edge) : Prop :=
  ∀ e ∈ edges, ∀ f ∈ edges, e.source = f.source → e.name = f.name → e = f

variable {o o' : Schedule}

theorem isBlocked_perm {edges edges' : List Edge} (relisted : edges.Perm edges') (v : Nat) :
    isBlocked edges v = isBlocked edges' v :=
  relisted.any_eq

theorem Relisted.release (relisted : Relisted o o') (e : Edge) :
    Relisted (o.release e) (o'.release e) := by
  have edges := relisted.edges.erase e
  refine ⟨?_, edges⟩
  simp only [Schedule.release, isBlocked_perm edges, relisted.ready]

theorem Relisted.foldl_release (relisted : Relisted o o') (outgoing : List Edge) :
    Relisted (outgoing.foldl Schedule.release o) (outgoing.foldl Schedule.release o') := by
  induction outgoing generalizing o o' with
  | nil => exact relisted
  | cons e outgoing ih => exact ih (relisted.release e)

theorem edges_foldl_release (o : Schedule) (outgoing : List Edge) :
    (outgoing.foldl Schedule.release o).edges ⊆ o.edges := by
  induction outgoing generalizing o with
  | nil => exact List.Subset.refl _
  | cons e outgoing ih => exact fun f left => List.erase_subset (ih (o.release e) left)

theorem Relisted.edgesFrom_eq (relisted : Relisted o o') (apart : NamesApart o.edges) (v : Nat) :
    o.edgesFrom v = o'.edgesFrom v := by
  have byName : OrderedBy Edge.name fun e f => decide (e.name ≤ f.name) :=
    fun _ _ => decide_eq_true_iff
  refine byName.mergeSort_eq (relisted.edges.filter _) fun e first f second same => ?_
  obtain ⟨member, source⟩ := List.mem_filter.1 first
  obtain ⟨member', source'⟩ := List.mem_filter.1 second
  rw [decide_eq_true_eq] at source source'
  exact apart e member f member' (source.trans source'.symm) same

/-- The search takes the same vertices however the edges are listed, and leaves the same edges. -/
theorem Relisted.run (relisted : Relisted o o') (apart : NamesApart o.edges) (count fuel : Nat) :
    (Schedule.run count fuel o).1 = (Schedule.run count fuel o').1 ∧
      (Schedule.run count fuel o).2.Perm (Schedule.run count fuel o').2 := by
  induction fuel generalizing o o' with
  | zero => exact ⟨rfl, relisted.edges⟩
  | succ fuel ih =>
      have ready := relisted.ready
      cases waiting : o.ready with
      | nil =>
          rw [waiting] at ready
          simpa [Schedule.run, waiting, ← ready] using relisted.edges
      | cons v waiting' =>
          rw [waiting] at ready
          -- sorted by names that are apart, the edges to take away are the same list
          have outgoing : ((vertex? count v).map o.edgesFrom).getD [] =
              ((vertex? count v).map o'.edgesFrom).getD [] := by
            rw [funext (relisted.edgesFrom_eq apart)]
          have next : Relisted { o with ready := waiting' } { o' with ready := waiting' } :=
            ⟨rfl, relisted.edges⟩
          simp only [Schedule.run, waiting, ← ready, ← outgoing]
          generalize ((vertex? count v).map o.edgesFrom).getD [] = outgoing
          have inside := edges_foldl_release { o with ready := waiting' } outgoing
          have rest := ih (next.foldl_release outgoing) fun e first f second =>
            apart e (inside first) f (inside second)
          exact ⟨congrArg _ rest.1, rest.2⟩

theorem relisted_start (count : Nat) {edges edges' : List Edge} (relisted : edges.Perm edges') :
    Relisted (start count edges) (start count edges') := by
  refine ⟨?_, relisted⟩
  simp only [start, isBlocked_perm relisted]

end Schedule

namespace Names

variable {edges edges' : List Edge}

theorem namesApart (names : Names count pairs edges) : Schedule.NamesApart edges := by
  rintro ⟨u, w, n⟩ first ⟨u', w', n'⟩ second source name
  have target : n = w := ((names.mem_iff _).1 first).2
  have target' : n' = w' := ((names.mem_iff _).1 second).2
  dsimp only at source name
  rw [target, target', Int.natCast_inj] at name
  rw [source, target, target', name]

/-- Edges that are listed in another way, more or less often, have the same order or fail for the
    same cause. -/
theorem topologicalOrder_congr (names : Names count pairs edges)
    (names' : Names count others edges') (same : ∀ p, p ∈ others ↔ p ∈ pairs) :
    topologicalOrder count others = topologicalOrder count pairs := by
  have relisted : edges'.Perm edges := by
    refine (List.perm_ext_iff_of_nodup names'.distinct names.distinct).2 fun e => ?_
    rw [names'.mem_iff, names.mem_iff, same]
  have run := (Schedule.relisted_start count relisted).run names'.namesApart count count
  cases ended : Schedule.run count count (Schedule.start count edges) with | mk order left
  cases ended' : Schedule.run count count (Schedule.start count edges') with | mk order' left'
  rw [ended, ended'] at run
  obtain ⟨rfl, left⟩ := run
  rw [names.topologicalOrder_eq ended, names'.topologicalOrder_eq ended',
    funext (Schedule.isBlocked_perm left)]

end Names

/-! ## The decision -/

theorem Schedule.Advanced.nothing_left_of_length {all left : List Edge} {order : List Int}
    (advanced : Advanced count all order { ready := [], edges := left })
    (complete : order.length = count) : left = [] := by
  have consistent := advanced.consistent
  have distinct : order.Nodup := by simpa using consistent.distinct
  have inside : order ⊆ vertices count := fun v member =>
    consistent.inside v (by simpa using member)
  have perm : order.Perm (vertices count) :=
    (List.subperm_of_subset distinct inside).perm_of_length_le (by simp [vertices, complete])
  refine List.eq_nil_iff_forall_not_mem.2 fun e member => ?_
  have source := (consistent.plain e member).1
  exact ((advanced.edges_iff e).1 member).2 (perm.mem_iff.2 (mem_vertices.2 ⟨_, source, rfl⟩))

/-- In an order that is found no edge leads back. -/
theorem forward_of_topologicalOrder (plain : ∀ p ∈ pairs, IsPlainPair count p) {order : List Int}
    (found : topologicalOrder count pairs = .ok order) :
    order.Perm (vertices count) ∧ order.Pairwise fun a b => (b, a) ∉ pairs := by
  obtain ⟨edges, names⟩ := exists_names plain
  have advanced := Schedule.advanced_run names.distinct (names.plain plain)
  cases ended : Schedule.run count count (Schedule.start count edges) with | mk order' left
  rw [ended] at advanced
  rw [names.topologicalOrder_eq ended] at found
  split at found
  · next complete =>
      cases found
      cases advanced.nothing_left_of_length complete
      exact ⟨advanced.perm_vertices, names.forward advanced⟩
  · cases found

theorem idxOf_lt_idxOf (plain : ∀ p ∈ pairs, IsPlainPair count p) {order : List Int}
    (perm : order.Perm (vertices count)) (forward : order.Pairwise fun a b => (b, a) ∉ pairs) :
    ∀ p ∈ pairs, order.idxOf p.1 < order.idxOf p.2 := by
  intro p edge
  obtain ⟨a, b, rfl, source, target, differ⟩ := plain p edge
  refine idxOf_lt_of_pairwise forward ?_ ?_ (by omega) edge
  · exact perm.mem_iff.2 (mem_vertices.2 ⟨a, source, rfl⟩)
  · exact perm.mem_iff.2 (mem_vertices.2 ⟨b, target, rfl⟩)

theorem topologicalOrder_of_loop (below : Below count pairs) {a : Int} (loop : (a, a) ∈ pairs) :
    ∃ a, topologicalOrder count pairs = .error (.inconsistent (.selfLoop a)) := by
  obtain ⟨a, first⟩ := edgesAfter_loop below loop []
  exact ⟨a, by rw [topologicalOrder, first]; rfl⟩

theorem topologicalOrder_of_plain (plain : ∀ p ∈ pairs, IsPlainPair count p) :
    (∃ order, topologicalOrder count pairs = .ok order) ∨
      ∃ cause, topologicalOrder count pairs = .error (.inconsistent cause) := by
  obtain ⟨edges, names⟩ := exists_names plain
  cases ended : Schedule.run count count (Schedule.start count edges) with | mk order left
  rw [names.topologicalOrder_eq ended]
  split
  · exact .inl ⟨order, rfl⟩
  · exact .inr ⟨_, rfl⟩

theorem topologicalOrder_of_circle (below : Below count pairs) (circle : HasCircle pairs) :
    ∃ cause, topologicalOrder count pairs = .error (.inconsistent cause) := by
  by_cases loop : ∃ a, (a, a) ∈ pairs
  · obtain ⟨a, loop⟩ := loop
    obtain ⟨a, failed⟩ := topologicalOrder_of_loop below loop
    exact ⟨_, failed⟩
  · have plain := below.plain fun a edge => loop ⟨a, edge⟩
    refine (topologicalOrder_of_plain plain).resolve_left fun ⟨order, found⟩ => ?_
    obtain ⟨perm, forward⟩ := forward_of_topologicalOrder plain found
    exact not_hasCircle_of_forward (idxOf_lt_idxOf plain perm forward) circle

theorem topologicalOrder_of_acyclic (below : Below count pairs) (acyclic : ¬ HasCircle pairs) :
    ∃ order, topologicalOrder count pairs = .ok order ∧ order.Perm (vertices count) ∧
      ∀ p ∈ pairs, order.idxOf p.1 < order.idxOf p.2 := by
  have plain := below.plain fun a loop => acyclic ⟨a, .single loop⟩
  obtain ⟨rank, falls⟩ := exists_rank below acyclic
  obtain ⟨order, found, perm, forward⟩ := topologicalOrder_ok plain rank falls
  exact ⟨order, found, perm, idxOf_lt_idxOf plain perm forward⟩

theorem topologicalOrder_eq_ok_iff (below : Below count pairs)
    (same : ∀ p, p ∈ others ↔ p ∈ pairs) (order : List Int) :
    topologicalOrder count others = .ok order ↔ topologicalOrder count pairs = .ok order := by
  have below' : Below count others := fun p member => below p ((same p).1 member)
  by_cases loop : ∃ a, (a, a) ∈ pairs
  · -- both searches fail, though not always at the same loop
    obtain ⟨a, loop⟩ := loop
    obtain ⟨_, failed⟩ := topologicalOrder_of_loop below loop
    obtain ⟨_, failed'⟩ := topologicalOrder_of_loop below' ((same _).2 loop)
    rw [failed, failed']
    exact iff_of_false nofun nofun
  · obtain ⟨edges, names⟩ := exists_names (below.plain fun a edge => loop ⟨a, edge⟩)
    obtain ⟨edges', names'⟩ := exists_names
      (below'.plain fun a edge => loop ⟨a, (same _).1 edge⟩)
    rw [names.topologicalOrder_congr names' same]

/-- Whether edges below a count lead in a circle is decided by the search for an order. Without a
    circle it finds all vertices in an order in which every edge leads forward, and with one it
    fails. The order is that of the set of edges, however often and in whatever order they come. -/
theorem topologicalOrder_decides (below : Below count pairs) :
    (¬ HasCircle pairs →
      ∃ order, topologicalOrder count pairs = .ok order ∧ order.Perm (vertices count) ∧
        ∀ p ∈ pairs, order.idxOf p.1 < order.idxOf p.2) ∧
    (HasCircle pairs → ∃ cause, topologicalOrder count pairs = .error (.inconsistent cause)) ∧
    ∀ others, (∀ p, p ∈ others ↔ p ∈ pairs) → ∀ order,
      topologicalOrder count others = .ok order ↔ topologicalOrder count pairs = .ok order :=
  ⟨topologicalOrder_of_acyclic below, topologicalOrder_of_circle below,
    fun _ same => topologicalOrder_eq_ok_iff below same⟩

/-- Two ways from one vertex to another, a vertex without edges, and an edge that comes twice. -/
def forkedEdges : List (Int × Int) :=
  [(0, 4), (0, 1), (1, 2), (4, 2), (0, 1)]

theorem topologicalOrder_decides_forked :
    Below 5 forkedEdges ∧ ¬ HasCircle forkedEdges ∧ HasCircle ((2, 0) :: forkedEdges) ∧
    (∃ order, topologicalOrder 5 forkedEdges = .ok order ∧
      topologicalOrder 5 forkedEdges.reverse = .ok order ∧ order.Perm (vertices 5) ∧
      ∀ p ∈ forkedEdges, order.idxOf p.1 < order.idxOf p.2) ∧
    ∃ cause, topologicalOrder 5 ((2, 0) :: forkedEdges) = .error (.inconsistent cause) := by
  have below : Below 5 ((2, 0) :: forkedEdges) := by unfold Below; decide
  have below' : Below 5 forkedEdges := fun p edge => below p (List.mem_cons_of_mem _ edge)
  have forward : ∀ p ∈ forkedEdges, [0, 4, 1, 2].idxOf p.1 < [0, 4, 1, 2].idxOf p.2 := by decide
  have acyclic := not_hasCircle_of_forward forward
  have circle : HasCircle ((2, 0) :: forkedEdges) := by
    have there : Leads ((2, 0) :: forkedEdges) 0 2 :=
      .tail (.single (b := 1) (by decide)) (by decide)
    exact ⟨0, there.tail (by decide)⟩
  obtain ⟨ordered, -, relisted⟩ := topologicalOrder_decides below'
  obtain ⟨order, found, perm, forward⟩ := ordered acyclic
  have reversed := (relisted forkedEdges.reverse (fun _ => List.mem_reverse) order).2 found
  exact ⟨below', acyclic, circle, ⟨order, found, reversed, perm, forward⟩,
    (topologicalOrder_decides below).2.1 circle⟩

end CallProfile.Graph
