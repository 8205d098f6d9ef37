import CallProfile.Proofs.Outcomes
import CallProfile.Proofs.Sorting
import CallProfile.Symbol.Basic

/-! # Ends of ranges

A row without an end of its own ends at the next start above its own, or one address on when there
is none. So no row that starts at or above zero fails to be a symbol, and an open row reaches into
no other one.
-/

namespace CallProfile

namespace SymbolRow

variable {rows : List SymbolRow} {row : SymbolRow} {starts : List Int} {start next : Int}

theorem orderedBy_start :
    OrderedBy (fun row : SymbolRow => row.start) fun a b => decide (a.start ≤ b.start) :=
  fun _ _ => decide_eq_true_iff

theorem sort_perm (rows : List SymbolRow) : (sort rows).Perm rows :=
  List.mergeSort_perm _ _

theorem pairwise_sort (rows : List SymbolRow) :
    ((sort rows).map (·.start)).Pairwise (· ≤ ·) :=
  List.pairwise_map.2 (orderedBy_start.pairwise_mergeSort rows)

/-! ## Open ends -/

theorem openStop_cases (starts : List Int) (start : Int) :
    (openStop starts start ∈ starts ∧ start < openStop starts start) ∨
      (∀ other ∈ starts, other ≤ start) ∧ openStop starts start = start + 1 := by
  cases found : starts.find? (start < ·) with
  | none =>
      right
      refine ⟨fun other member => ?_, by rw [openStop, found]; rfl⟩
      have below := List.find?_eq_none.1 found other member
      simpa using below
  | some next =>
      left
      have above := List.find?_some found
      rw [openStop, found]
      exact ⟨List.mem_of_find?_eq_some found, of_decide_eq_true above⟩

theorem lt_openStop (starts : List Int) (start : Int) : start < openStop starts start := by
  rcases openStop_cases starts start with ⟨_, above⟩ | ⟨_, last⟩
  · exact above
  · omega

theorem openStop_le (sorted : starts.Pairwise (· ≤ ·)) (member : next ∈ starts)
    (above : start < next) : openStop starts start ≤ next := by
  induction starts with
  | nil => cases member
  | cons first starts ih =>
      rw [List.pairwise_cons] at sorted
      by_cases higher : start < first
      · have found : openStop (first :: starts) start = first := by simp [openStop, higher]
        rw [found]
        rcases List.mem_cons.1 member with rfl | later
        · exact le_rfl
        · exact sorted.1 next later
      · have found : openStop (first :: starts) start = openStop starts start := by
          simp [openStop, higher]
        rw [found]
        rcases List.mem_cons.1 member with rfl | later
        · exact absurd above higher
        · exact ih sorted.2 later

theorem lt_closedStop (starts : List Int) (row : SymbolRow) :
    row.start < row.closedStop starts := by
  unfold closedStop
  cases row.stop with
  | none => exact lt_openStop starts row.start
  | some stop =>
      dsimp only
      split
      · assumption
      · exact lt_openStop starts row.start

/-- Whether an address is the lowest start of rows above an address, or the address behind it where
    no row starts higher. -/
def IsNextStart (rows : List SymbolRow) (start next : Int) : Prop :=
  ((∃ other ∈ rows, other.start = next) ∧ start < next ∧
      ∀ other ∈ rows, start < other.start → next ≤ other.start) ∨
    (∀ other ∈ rows, other.start ≤ start) ∧ next = start + 1

theorem isNextStart_openStop (rows : List SymbolRow) (start : Int) :
    IsNextStart rows start (openStop ((sort rows).map (·.start)) start) := by
  have listed : ∀ next, next ∈ (sort rows).map (·.start) ↔ ∃ other ∈ rows, other.start = next :=
    fun next => by simp only [List.mem_map, (sort_perm rows).mem_iff]
  rcases openStop_cases ((sort rows).map (·.start)) start with ⟨member, above⟩ | ⟨last, next⟩
  · refine .inl ⟨(listed _).1 member, above, fun other among higher => ?_⟩
    exact openStop_le (pairwise_sort rows) ((listed _).2 ⟨other, among, rfl⟩) higher
  · exact .inr ⟨fun other among => last _ ((listed _).2 ⟨other, among, rfl⟩), next⟩

theorem IsNextStart.eq_of_lt {other : SymbolRow} (isNext : IsNextStart rows start next)
    (among : other ∈ rows) (reached : start ≤ other.start) (before : other.start < next) :
    other.start = start := by
  rcases isNext with ⟨-, -, least⟩ | ⟨last, -⟩
  · by_contra apart
    have higher := least other among (by omega)
    omega
  · exact le_antisymm (last other among) reached

theorem closedStop_of_lt {stop : Int} (own : row.stop = some stop) (above : row.start < stop) :
    row.closedStop starts = stop := by
  rw [closedStop, own]
  exact if_pos above

theorem closedStop_of_open (isOpen : ∀ stop ∈ row.stop, stop ≤ row.start) :
    row.closedStop starts = openStop starts row.start := by
  unfold closedStop
  cases own : row.stop with
  | none => rfl
  | some stop => exact if_neg (not_lt.2 (isOpen stop own))

/-! ## Symbols of rows -/

/-- Whether a symbol is what a row becomes once its end is known. -/
structure IsClosed (starts : List Int) (row : SymbolRow) (s : Symbol) : Prop where
  name : s.name = row.name
  start : (s.start : Int) = row.start
  stop : (s.stop : Int) = row.closedStop starts
  source : s.source = row.source

theorem exists_close (starts : List Int) (nonneg : 0 ≤ row.start) :
    ∃ s, row.close starts = .ok s ∧ IsClosed starts row s := by
  have above := lt_closedStop starts row
  obtain ⟨start, begins⟩ := Int.eq_ofNat_of_zero_le nonneg
  obtain ⟨stop, ends⟩ := Int.eq_ofNat_of_zero_le (nonneg.trans above.le)
  have order : start ≤ stop := by omega
  refine ⟨⟨row.name, start, stop, row.source, order⟩, ?_, rfl, begins.symm, ends.symm, rfl⟩
  rw [close, begins, ends]
  exact dif_pos order

/-- Whether rows are others sorted by their starts, those with one start in the order they came. -/
structure IsSorted (sorted rows : List SymbolRow) : Prop where
  perm : sorted.Perm rows
  ordered : (sorted.map (·.start)).Pairwise (· ≤ ·)
  stable : ∀ start, (sorted.filter fun row => row.start = start) =
    rows.filter fun row => row.start = start

theorem isSorted_sort (rows : List SymbolRow) : IsSorted (sort rows) rows where
  perm := sort_perm rows
  ordered := pairwise_sort rows
  stable := orderedBy_start.filter_mergeSort rows

/-- Whether a symbol is that of a row among others. It has some address; it ends where the row says
    if that is above its start, and else at the next start, so that no other start is in it. -/
structure IsSymbolOf (rows : List SymbolRow) (row : SymbolRow) (s : Symbol) : Prop where
  name : s.name = row.name
  start : (s.start : Int) = row.start
  source : s.source = row.source
  nonempty : s.start < s.stop
  own : ∀ stop ∈ row.stop, row.start < stop → (s.stop : Int) = stop
  next : (∀ stop ∈ row.stop, stop ≤ row.start) → IsNextStart rows row.start s.stop
  alone : (∀ stop ∈ row.stop, stop ≤ row.start) → ∀ other ∈ rows,
    s.contains other.start = true → other.start = row.start

theorem IsClosed.isSymbolOf {s : Symbol}
    (closed : IsClosed ((sort rows).map (·.start)) row s) : IsSymbolOf rows row s := by
  have next (isOpen : ∀ stop ∈ row.stop, stop ≤ row.start) :
      IsNextStart rows row.start s.stop := by
    rw [closed.stop, closedStop_of_open isOpen]
    exact isNextStart_openStop rows row.start
  refine ⟨closed.name, closed.start, closed.source, ?_, ?_, next, ?_⟩
  · have above := lt_closedStop ((sort rows).map (·.start)) row
    rw [← closed.start, ← closed.stop] at above
    exact_mod_cast above
  · intro stop own above
    rw [closed.stop, closedStop_of_lt own above]
  · intro isOpen other among inside
    rw [Symbol.contains, Bool.and_eq_true, decide_eq_true_iff, decide_eq_true_iff,
      closed.start] at inside
    exact (next isOpen).eq_of_lt among inside.1 inside.2

end SymbolRow

open SymbolRow

theorem closeRanges_ok {rows : List SymbolRow} (nonneg : ∀ row ∈ rows, 0 ≤ row.start) :
    ∃ symbols, closeRanges rows = .ok symbols ∧
      List.Forall₂ (IsClosed ((sort rows).map (·.start))) (sort rows) symbols :=
  exists_mapM fun row member =>
    exists_close _ (nonneg row ((sort_perm rows).mem_iff.1 member))

/-- Closing ranges keeps every row that starts at or above zero, in the order of the starts, and
    gives it a range of its own: no row is lost, and no open one overlaps the next. -/
theorem closeRanges_keeps_rows {rows : List SymbolRow} (nonneg : ∀ row ∈ rows, 0 ≤ row.start) :
    ∃ sorted symbols, closeRanges rows = .ok symbols ∧ IsSorted sorted rows ∧
      List.Forall₂ (IsSymbolOf rows) sorted symbols := by
  obtain ⟨symbols, made, closed⟩ := closeRanges_ok nonneg
  exact ⟨sort rows, symbols, made, isSorted_sort rows, closed.imp fun _ _ => IsClosed.isSymbolOf⟩

/-- Rows out of order: two with one start, of which one ends before it starts, and two that are open
    behind them. -/
def aliasedRows : List SymbolRow :=
  [ { name := "last", start := 0x30, stop := none, source := none },
    { name := "first", start := 0x10, stop := some 0x8, source := some "a.c" },
    { name := "alias", start := 0x10, stop := some 0x40, source := none },
    { name := "open", start := 0x20, stop := some 0x20, source := none } ]

theorem closeRanges_keeps_aliasedRows :
    (∀ row ∈ aliasedRows, 0 ≤ row.start) ∧
      ∃ sorted symbols, closeRanges aliasedRows = .ok symbols ∧ IsSorted sorted aliasedRows ∧
        List.Forall₂ (IsSymbolOf aliasedRows) sorted symbols :=
  ⟨by decide, closeRanges_keeps_rows (by decide)⟩

end CallProfile
