import CallProfile.Graph.Order
import Mathlib.Data.Finset.Max
import Mathlib.Data.List.Perm.Subperm

/-! # Ordering an acyclic graph

What is in the order or ready is what no edge leads to any more, and the edges that are
left are those from vertices outside the order. So an order that stops early leaves edges
behind whose sources are all blocked, which a graph without a circle does not have.
-/

namespace CallProfile.Graph

/-- Whether an edge joins vertices below a count and names its target by its number. -/
def Edge.Plain (count : Nat) (e : Edge) : Prop :=
  e.source < count ∧ e.target < count ∧ e.name = e.target

/-- A pair of two different numbers below a count. -/
def IsPlainPair (count : Nat) (p : Int × Int) : Prop :=
  ∃ a b : Nat, p = (↑a, ↑b) ∧ a < count ∧ b < count ∧ a ≠ b

/-- The vertices below a count, in order. -/
def vertices (count : Nat) : List Int :=
  (List.range count).map Int.ofNat

theorem mem_vertices {count : Nat} {v : Int} : v ∈ vertices count ↔ ∃ n < count, v = (n : Int) := by
  rw [vertices, List.mem_map]
  simp only [List.mem_range]
  exact ⟨fun ⟨n, below, same⟩ => ⟨n, below, same.symm⟩,
    fun ⟨n, below, same⟩ => ⟨n, below, same.symm⟩⟩

theorem nodup_vertices (count : Nat) : (vertices count).Nodup :=
  List.nodup_range.map fun _ _ => Int.ofNat.inj

theorem vertex?_natCast {count n : Nat} (below : n < count) : vertex? count n = some n := by
  have low : (n : Int) < count := by omega
  simp [vertex?, low]

theorem edge_eq_iff {a b : Nat} (e : Edge) : e = Edge.mk a b b ↔
    ((e.source : Int), (e.target : Int)) = (↑a, ↑b) ∧ e.name = e.target := by
  obtain ⟨u, w, name⟩ := e
  simp only [Edge.mk.injEq, Prod.mk.injEq, Int.natCast_inj]
  constructor
  · rintro ⟨rfl, rfl, rfl⟩
    exact ⟨⟨rfl, rfl⟩, rfl⟩
  · rintro ⟨⟨rfl, rfl⟩, rfl⟩
    exact ⟨rfl, rfl, rfl⟩

theorem edgesAfter_ok {count : Nat} {pairs : List (Int × Int)}
    (plain : ∀ p ∈ pairs, IsPlainPair count p) {before : List Edge} (distinct : before.Nodup) :
    ∃ edges, edgesAfter count before pairs = .ok edges ∧ edges.Nodup ∧
      ∀ e, e ∈ edges ↔ e ∈ before ∨ ((e.source : Int), (e.target : Int)) ∈ pairs ∧
        e.name = e.target := by
  induction pairs generalizing before with
  | nil => exact ⟨before, rfl, distinct, by simp⟩
  | cons p pairs ih =>
      obtain ⟨a, b, rfl, source, target, differ⟩ := plain p List.mem_cons_self
      have rest := fun q member => plain q (List.mem_cons_of_mem _ member)
      have apart : ¬ (a : Int) = b := by omega
      simp only [edgesAfter, apart, if_false, vertex?_natCast source, vertex?_natCast target]
      split
      · next known =>
          obtain ⟨edges, found, nodup, members⟩ := ih rest distinct
          refine ⟨edges, found, nodup, fun e => ?_⟩
          have old : e = Edge.mk a b b → e ∈ before := by
            rintro rfl
            simpa using known
          rw [members, List.mem_cons, or_and_right, ← edge_eq_iff]
          tauto
      · next unknown =>
          have longer : (before ++ [Edge.mk a b b]).Nodup := by
            refine List.nodup_append.2 ⟨distinct, by simp, fun e member f last same => ?_⟩
            rw [List.mem_singleton.1 last] at same
            exact unknown (by simpa [same] using member)
          obtain ⟨edges, found, nodup, members⟩ := ih rest longer
          refine ⟨edges, found, nodup, fun e => ?_⟩
          rw [members, List.mem_append, List.mem_singleton, List.mem_cons, or_and_right,
            ← edge_eq_iff, or_assoc]

namespace Schedule

theorem isBlocked_iff {edges : List Edge} {n : Nat} :
    isBlocked edges n = true ↔ ∃ e ∈ edges, e.target = n := by
  simp [isBlocked]

/-- What holds of a schedule at every moment: the vertices taken out or ready are those that
    no edge leads to. -/
structure Consistent (count : Nat) (taken : List Int) (o : Schedule) : Prop where
  edgesDistinct : o.edges.Nodup
  plain : ∀ e ∈ o.edges, e.Plain count
  inside : ∀ v ∈ taken ++ o.ready, v ∈ vertices count
  distinct : (taken ++ o.ready).Nodup
  free_iff : ∀ n < count, (n : Int) ∈ taken ++ o.ready ↔ ∀ e ∈ o.edges, e.target ≠ n

variable {count : Nat} {taken : List Int} {o : Schedule}

theorem Consistent.target_waits (consistent : Consistent count taken o) {e : Edge}
    (member : e ∈ o.edges) : (e.target : Int) ∉ taken ++ o.ready := by
  intro here
  exact (consistent.free_iff e.target (consistent.plain e member).2.1).1 here e member rfl

theorem Consistent.mem_erase (consistent : Consistent count taken o) {e f : Edge} :
    f ∈ o.edges.erase e ↔ f ≠ e ∧ f ∈ o.edges :=
  consistent.edgesDistinct.mem_erase_iff

/-- Without an edge the same edges lead to all vertices other than its target. -/
theorem Consistent.free_erase_iff (consistent : Consistent count taken o) {e : Edge} {n : Nat}
    (differ : n ≠ e.target) :
    (∀ f ∈ o.edges.erase e, f.target ≠ n) ↔ ∀ f ∈ o.edges, f.target ≠ n := by
  constructor
  · intro free f old same
    refine free f (consistent.mem_erase.2 ⟨?_, old⟩) same
    rintro rfl
    exact differ same.symm
  · exact fun free f new => free f (consistent.mem_erase.1 new).2

theorem Consistent.release_blocked (consistent : Consistent count taken o) {e : Edge}
    (member : e ∈ o.edges) (blocked : isBlocked (o.edges.erase e) e.target = true) :
    Consistent count taken { o with edges := o.edges.erase e } where
  edgesDistinct := consistent.edgesDistinct.erase e
  plain f new := consistent.plain f (consistent.mem_erase.1 new).2
  inside := consistent.inside
  distinct := consistent.distinct
  free_iff n below := by
    rw [consistent.free_iff n below]
    by_cases same : n = e.target
    · obtain ⟨f, new, target⟩ := isBlocked_iff.1 blocked
      subst same
      exact iff_of_false (fun free => free e member rfl) fun free => free f new target
    · exact (consistent.free_erase_iff same).symm

theorem Consistent.release_free (consistent : Consistent count taken o) {e : Edge}
    (member : e ∈ o.edges) (free : ¬ isBlocked (o.edges.erase e) e.target = true) :
    Consistent count taken
      { ready := o.ready ++ [(e.target : Int)], edges := o.edges.erase e } where
  edgesDistinct := consistent.edgesDistinct.erase e
  plain f new := consistent.plain f (consistent.mem_erase.1 new).2
  inside v here := by
    rw [← List.append_assoc, List.mem_append, List.mem_singleton] at here
    rcases here with before | rfl
    · exact consistent.inside v before
    · exact mem_vertices.2 ⟨e.target, (consistent.plain e member).2.1, rfl⟩
  distinct := by
    rw [← List.append_assoc]
    refine List.nodup_append.2 ⟨consistent.distinct, by simp, fun v here w last same => ?_⟩
    rw [List.mem_singleton.1 last] at same
    exact consistent.target_waits member (same ▸ here)
  free_iff n below := by
    rw [← List.append_assoc, List.mem_append, List.mem_singleton, Int.natCast_inj]
    by_cases same : n = e.target
    · subst same
      refine iff_of_true (.inr rfl) fun f new target => ?_
      exact free (isBlocked_iff.2 ⟨f, new, target⟩)
    · rw [or_iff_left same, consistent.free_iff n below, consistent.free_erase_iff same]

theorem Consistent.release (consistent : Consistent count taken o) {e : Edge}
    (member : e ∈ o.edges) : Consistent count taken (o.release e) := by
  unfold Schedule.release
  by_cases blocked : isBlocked (o.edges.erase e) e.target = true
  · simp only [blocked, if_true]
    exact consistent.release_blocked member blocked
  · simp only [blocked, (consistent.plain e member).2.2]
    exact consistent.release_free member blocked

theorem Consistent.foldl_release {outgoing : List Edge} (consistent : Consistent count taken o)
    (distinct : outgoing.Nodup) (members : ∀ e ∈ outgoing, e ∈ o.edges) :
    Consistent count taken (outgoing.foldl Schedule.release o) ∧
      ∀ f, f ∈ (outgoing.foldl Schedule.release o).edges ↔ f ∈ o.edges ∧ f ∉ outgoing := by
  induction outgoing generalizing o with
  | nil => exact ⟨consistent, by simp⟩
  | cons e outgoing ih =>
      rw [List.nodup_cons] at distinct
      have kept : ∀ f, f ∈ (o.release e).edges ↔ f ≠ e ∧ f ∈ o.edges :=
        fun f => consistent.mem_erase
      have later : ∀ f ∈ outgoing, f ∈ (o.release e).edges := by
        intro f member
        refine (kept f).2 ⟨?_, members f (List.mem_cons_of_mem e member)⟩
        rintro rfl
        exact distinct.1 member
      obtain ⟨rest, edges⟩ :=
        ih (consistent.release (members e List.mem_cons_self)) distinct.2 later
      refine ⟨rest, fun f => ?_⟩
      rw [List.foldl_cons, edges, kept, List.mem_cons]
      tauto

/-- How far an order has come: the edges that are left are those from vertices outside it,
    and no edge leads back in it. -/
structure Advanced (count : Nat) (all : List Edge) (order : List Int) (o : Schedule) :
    Prop where
  consistent : Consistent count order o
  edges_iff : ∀ e, e ∈ o.edges ↔ e ∈ all ∧ (e.source : Int) ∉ order
  forward : order.Pairwise fun a b => ∀ e ∈ all, (e.target : Int) = a → (e.source : Int) ≠ b

variable {all : List Edge} {order : List Int}

theorem Advanced.length_le (advanced : Advanced count all order o) :
    (order ++ o.ready).length ≤ count := by
  have subperm := List.subperm_of_subset advanced.consistent.distinct
    advanced.consistent.inside
  simpa [vertices] using subperm.length_le

theorem mem_edgesFrom {e : Edge} {n : Nat} :
    e ∈ o.edgesFrom n ↔ e ∈ o.edges ∧ e.source = n := by
  simp [edgesFrom]

theorem Advanced.take {v : Int} {ready : List Int} {n : Nat}
    (advanced : Advanced count all order o) (first : o.ready = v :: ready)
    (name : v = (n : Int)) :
    Advanced count all (order ++ [v])
      ((o.edgesFrom n).foldl Schedule.release { o with ready }) := by
  have before := advanced.consistent
  have start : Consistent count (order ++ [v]) { o with ready } :=
    { edgesDistinct := before.edgesDistinct
      plain := before.plain
      inside := by simpa [first] using before.inside
      distinct := by simpa [first] using before.distinct
      free_iff := by simpa [first] using before.free_iff }
  have outgoing : (o.edgesFrom n).Nodup :=
    (List.mergeSort_perm _ _).nodup_iff.2 (before.edgesDistinct.filter _)
  obtain ⟨consistent, edges⟩ :=
    start.foldl_release outgoing fun e member => (mem_edgesFrom.1 member).1
  have absent : v ∉ order := by
    have distinct := List.nodup_append.1 before.distinct
    exact fun here => distinct.2.2 v here v (by simp [first]) rfl
  refine ⟨consistent, fun e => ?_, ?_⟩
  · have left := advanced.edges_iff e
    dsimp only at left edges
    rw [edges, mem_edgesFrom, left, List.mem_append, List.mem_singleton, name,
      Int.natCast_inj]
    tauto
  · refine List.pairwise_append.2 ⟨advanced.forward, by simp, fun a here b last e member => ?_⟩
    rw [List.mem_singleton.1 last]
    intro target source
    have waits := before.target_waits ((advanced.edges_iff e).2 ⟨member, source ▸ absent⟩)
    exact waits (List.mem_append_left _ (target ▸ here))

theorem Advanced.run {fuel : Nat} (advanced : Advanced count all order o)
    (enough : count ≤ order.length + fuel) :
    Advanced count all (order ++ (Schedule.run count fuel o).1)
      { ready := [], edges := (Schedule.run count fuel o).2 } := by
  induction fuel generalizing order o with
  | zero =>
      have short := advanced.length_le
      have idle : o.ready = [] := by
        rw [List.length_append] at short
        exact List.length_eq_zero_iff.1 (by omega)
      obtain ⟨ready, edges⟩ := o
      cases idle
      simpa [Schedule.run] using advanced
  | succ fuel ih =>
      cases ready : o.ready with
      | nil =>
          obtain ⟨_, edges⟩ := o
          cases ready
          simpa [Schedule.run] using advanced
      | cons v waiting =>
          obtain ⟨n, below, name⟩ :=
            mem_vertices.1 (advanced.consistent.inside v (by simp [ready]))
          have longer : count ≤ (order ++ [v]).length + fuel := by
            rw [List.length_append, List.length_singleton]
            omega
          have rest := ih (advanced.take ready name) longer
          subst name
          simp only [Schedule.run, ready, vertex?_natCast below, Option.map_some,
            Option.getD_some]
          rwa [List.append_assoc] at rest

/-- An edge that is left comes from a vertex that another one leads to. -/
theorem Advanced.source_blocked {left : List Edge}
    (advanced : Advanced count all order { ready := [], edges := left }) {e : Edge}
    (member : e ∈ left) : ∃ f ∈ left, f.target = e.source := by
  have consistent := advanced.consistent
  have outside := ((advanced.edges_iff e).1 member).2
  have waits := mt (consistent.free_iff e.source (consistent.plain e member).1).2
    (by simpa using outside)
  simpa using waits

/-- Edges along which a rank falls do not block each other for ever. -/
theorem Advanced.nothing_left {left : List Edge}
    (advanced : Advanced count all order { ready := [], edges := left }) (rank : Nat → Nat)
    (falls : ∀ e ∈ all, rank e.target < rank e.source) : left = [] := by
  by_contra some
  have nonempty : left.toFinset.Nonempty := by
    simpa [Finset.nonempty_iff_ne_empty] using some
  obtain ⟨e, member, highest⟩ := left.toFinset.exists_max_image (rank ·.source) nonempty
  obtain ⟨f, blocker, target⟩ := advanced.source_blocked (List.mem_toFinset.1 member)
  have falling := falls f ((advanced.edges_iff f).1 blocker).1
  have bounded := highest f (List.mem_toFinset.2 blocker)
  rw [target] at falling
  omega

theorem Advanced.perm_vertices
    (advanced : Advanced count all order { ready := [], edges := [] }) :
    order.Perm (vertices count) := by
  have consistent := advanced.consistent
  have distinct : order.Nodup := by simpa using consistent.distinct
  refine (List.perm_ext_iff_of_nodup distinct (nodup_vertices count)).2 fun v => ?_
  refine ⟨fun member => consistent.inside v (by simpa using member), fun member => ?_⟩
  obtain ⟨n, below, rfl⟩ := mem_vertices.1 member
  simpa using (consistent.free_iff n below).2

/-- What is ready before any vertex is in the order. -/
def start (count : Nat) (edges : List Edge) : Schedule where
  ready := ((List.range count).filter fun v => !isBlocked edges v).map Int.ofNat
  edges := edges

theorem advanced_start {edges : List Edge} (distinct : edges.Nodup)
    (plain : ∀ e ∈ edges, e.Plain count) : Advanced count edges [] (start count edges) := by
  have ready : ∀ v, v ∈ (start count edges).ready ↔
      ∃ n < count, v = (n : Int) ∧ ∀ e ∈ edges, e.target ≠ n := by
    intro v
    simp only [start, List.mem_map, List.mem_filter, List.mem_range, Bool.not_eq_true',
      Bool.eq_false_iff, ne_eq, isBlocked_iff]
    constructor
    · rintro ⟨n, ⟨below, free⟩, rfl⟩
      exact ⟨n, below, rfl, fun e member target => free ⟨e, member, target⟩⟩
    · rintro ⟨n, below, rfl, free⟩
      exact ⟨n, ⟨below, fun ⟨e, member, target⟩ => free e member target⟩, rfl⟩
  refine ⟨⟨distinct, plain, fun v member => ?_, ?_, fun n below => ?_⟩, by simp [start], .nil⟩
  · obtain ⟨n, below, name, _⟩ := (ready v).1 member
    exact mem_vertices.2 ⟨n, below, name⟩
  · exact ((List.nodup_range.filter _).map fun _ _ => Int.ofNat.inj)
  · refine (ready n).trans ⟨?_, fun free => ⟨n, below, rfl, free⟩⟩
    rintro ⟨m, _, same, free⟩
    rwa [Int.natCast_inj.1 same]

/-- Starting with some edges, the search goes on until nothing is ready. -/
theorem advanced_run {edges : List Edge} (distinct : edges.Nodup)
    (plain : ∀ e ∈ edges, e.Plain count) :
    Advanced count edges (run count count (start count edges)).1
      { ready := [], edges := (run count count (start count edges)).2 } := by
  have enough : count ≤ ([] : List Int).length + count := by simp
  simpa using (advanced_start distinct plain).run enough

end Schedule

/-- The edges that pairs of numbers name, each one once. -/
structure Names (count : Nat) (pairs : List (Int × Int)) (edges : List Edge) : Prop where
  found : edgesAfter count [] pairs = .ok edges
  distinct : edges.Nodup
  mem_iff : ∀ e, e ∈ edges ↔ ((e.source : Int), (e.target : Int)) ∈ pairs ∧ e.name = e.target

variable {count : Nat} {pairs : List (Int × Int)} {edges : List Edge}

theorem exists_names (plain : ∀ p ∈ pairs, IsPlainPair count p) :
    ∃ edges, Names count pairs edges := by
  obtain ⟨edges, found, distinct, members⟩ := edgesAfter_ok plain List.nodup_nil
  exact ⟨edges, found, distinct, by simpa using members⟩

namespace Names

theorem plain (names : Names count pairs edges) (plain : ∀ p ∈ pairs, IsPlainPair count p) :
    ∀ e ∈ edges, e.Plain count := by
  intro e member
  obtain ⟨pair, name⟩ := (names.mem_iff e).1 member
  obtain ⟨a, b, same, source, target, _⟩ := plain _ pair
  simp only [Prod.mk.injEq, Int.natCast_inj] at same
  exact ⟨same.1 ▸ source, same.2 ▸ target, name⟩

theorem topologicalOrder_eq (names : Names count pairs edges) {order : List Int}
    {left : List Edge}
    (ended : Schedule.run count count (Schedule.start count edges) = (order, left)) :
    topologicalOrder count pairs =
      if order.length = count then .ok order
      else .error (.inconsistent (.stuck order.length count
        (((List.range count).filter (Schedule.isBlocked left)).take 10))) := by
  rw [Schedule.start] at ended
  simp only [topologicalOrder, names.found, ended, bind, Except.bind]
  rfl

theorem forward (names : Names count pairs edges) {order : List Int}
    (advanced : Schedule.Advanced count edges order { ready := [], edges := [] }) :
    order.Pairwise fun a b => (b, a) ∉ pairs := by
  have perm := advanced.perm_vertices
  refine advanced.forward.imp_of_mem fun {a b} first second apart pair => ?_
  obtain ⟨n, _, rfl⟩ := mem_vertices.1 (perm.mem_iff.1 second)
  obtain ⟨m, _, rfl⟩ := mem_vertices.1 (perm.mem_iff.1 first)
  exact apart ⟨n, m, m⟩ ((names.mem_iff _).2 ⟨pair, rfl⟩) rfl rfl

end Names

/-- Pairs along which a rank falls have an order: all vertices, and no pair leads back. -/
theorem topologicalOrder_ok {count : Nat} {pairs : List (Int × Int)}
    (plain : ∀ p ∈ pairs, IsPlainPair count p) (rank : Nat → Nat)
    (falls : ∀ a b : Nat, ((a : Int), (b : Int)) ∈ pairs → rank b < rank a) :
    ∃ order, topologicalOrder count pairs = .ok order ∧ order.Perm (vertices count) ∧
      order.Pairwise fun a b => (b, a) ∉ pairs := by
  obtain ⟨edges, names⟩ := exists_names plain
  have advanced := Schedule.advanced_run names.distinct (names.plain plain)
  cases ended : Schedule.run count count (Schedule.start count edges) with | mk order left
  rw [ended] at advanced
  have none_left : left = [] := advanced.nothing_left rank fun e member =>
    falls _ _ ((names.mem_iff e).1 member).1
  subst none_left
  have perm := advanced.perm_vertices
  refine ⟨order, ?_, perm, names.forward advanced⟩
  rw [names.topologicalOrder_eq ended]
  exact if_pos (by simp [perm.length_eq, vertices])

end CallProfile.Graph
