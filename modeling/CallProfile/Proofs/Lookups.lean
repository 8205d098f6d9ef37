import CallProfile.Proofs.Sorting
import CallProfile.Symbol.Table
import Mathlib.Data.Finset.Max
import Mathlib.Data.List.Find

/-! # Looking up addresses

A table looks only at the symbols that start within its reach of an address, from the last one to
the first. What it finds is what a search through all of its symbols finds: of those that cover the
address the narrowest, and of the narrowest the first.
-/

namespace CallProfile

namespace Symbol

/-- Whether an address lies in the range of a symbol, whose end is excluded. -/
def Covers (s : Symbol) (address : Int) : Prop :=
  (s.start : Int) ≤ address ∧ address < s.stop

instance (s : Symbol) (address : Int) : Decidable (s.Covers address) :=
  inferInstanceAs (Decidable (_ ∧ _))

theorem contains_eq (s : Symbol) (address : Int) : s.contains address = decide (s.Covers address) :=
  (Bool.decide_and _ _).symm

/-- No symbol covers an address that is farther from its start than its size. -/
theorem Covers.near {s : Symbol} {address : Int} (covers : s.Covers address) :
    address - s.size ≤ s.start := by
  obtain ⟨_, before⟩ := covers
  have order := s.start_le_stop
  unfold size
  omega

end Symbol

/-- Whether a symbol covers an address and none of some symbols that cover it is narrower. -/
def IsNarrowest (symbols : List Symbol) (address : Int) (s : Symbol) : Prop :=
  s.Covers address ∧ ∀ t ∈ symbols, t.Covers address → s.size ≤ t.size

instance (symbols : List Symbol) (address : Int) (s : Symbol) :
    Decidable (IsNarrowest symbols address s) :=
  inferInstanceAs (Decidable (_ ∧ _))

theorem filter_takeWhile {α : Type} {p q : α → Bool} {xs : List α}
    (falls : xs.Pairwise fun x y => p y = true → p x = true)
    (stronger : ∀ x ∈ xs, q x = true → p x = true) : (xs.takeWhile p).filter q = xs.filter q := by
  induction xs with
  | nil => rfl
  | cons x xs ih =>
      rw [List.pairwise_cons] at falls
      by_cases holds : p x = true
      · have rest := ih falls.2 fun y member => stronger y (List.mem_cons_of_mem x member)
        rw [List.takeWhile_cons_of_pos holds, List.filter_cons, List.filter_cons, rest]
      · -- neither the first element nor a later one is looked for
        have none : (x :: xs).filter q = [] := by
          rw [List.filter_eq_nil_iff]
          intro y member chosen
          rcases List.mem_cons.1 member with rfl | later
          · exact holds (stronger y member chosen)
          · exact holds (falls.1 y later (stronger y member chosen))
        rw [List.takeWhile_cons_of_neg holds, none]
        rfl

namespace SymbolTable

variable {symbols : List Symbol} {address : Int} {s : Symbol} {t : SymbolTable}

/-- Where a symbol stands in a table: by its start, then its size, then its name. -/
def place (s : Symbol) : Nat ×ₗ Nat ×ₗ String :=
  toLex (s.start, toLex (s.size, s.name))

theorem orderedBy_inOrder : OrderedBy place inOrder := by
  intro a b
  simp only [inOrder, place, Prod.Lex.toLex_le_toLex]
  by_cases start : a.start = b.start
  · by_cases size : a.size = b.size
    · rw [if_pos start, if_pos size, not_lt_text]
      simp [start, size]
    · simp [start, size]
  · simp [start]

/-- Whether a table has its symbols in order and none of them is larger than its reach. -/
structure IsOrdered (t : SymbolTable) : Prop where
  sorted : t.symbols.Pairwise fun a b => place a ≤ place b
  reached : ∀ s ∈ t.symbols, s.size ≤ t.reach

theorem size_le_foldl_max (symbols : List Symbol) (reach : Nat) :
    reach ≤ symbols.foldl (fun reach s => max reach s.size) reach ∧
      ∀ s ∈ symbols, s.size ≤ symbols.foldl (fun reach s => max reach s.size) reach := by
  induction symbols generalizing reach with
  | nil => simp
  | cons t symbols ih =>
      obtain ⟨first, rest⟩ := ih (max reach t.size)
      rw [List.foldl_cons]
      constructor
      · omega
      · intro s member
        rcases List.mem_cons.1 member with rfl | later
        · omega
        · exact rest s later

theorem isOrdered_ofList (symbols : List Symbol) : (ofList symbols).IsOrdered where
  sorted := orderedBy_inOrder.pairwise_mergeSort _
  reached := (size_le_foldl_max _ 0).2

@[simp] theorem mem_ofList : s ∈ (ofList symbols).symbols ↔ s ∈ symbols :=
  List.mem_mergeSort.trans List.mem_eraseDups

theorem IsOrdered.start_le (ordered : t.IsOrdered) :
    t.symbols.Pairwise fun a b => a.start ≤ b.start := by
  apply ordered.sorted.imp
  intro a b places
  simp only [place, Prod.Lex.toLex_le_toLex] at places
  omega

/-! ## The candidates -/

theorem IsOrdered.filter_candidates (ordered : t.IsOrdered) (address : Int) :
    (t.candidates address).filter (·.contains address) =
      t.symbols.reverse.filter (·.contains address) := by
  have starts := ordered.start_le
  have below : (t.symbols.takeWhile fun s => decide ((s.start : Int) ≤ address)).filter
      (·.contains address) = t.symbols.filter (·.contains address) := by
    apply filter_takeWhile
    · apply starts.imp
      intro a b start before
      simp only [decide_eq_true_eq] at before ⊢
      omega
    · intro s _ covers
      rw [Symbol.contains_eq, decide_eq_true_eq] at covers
      exact decide_eq_true covers.1
  rw [candidates, filter_takeWhile, List.filter_reverse, below, List.filter_reverse]
  · -- from the last start down, what is out of reach stays out of reach
    rw [List.pairwise_reverse]
    apply (starts.sublist (List.takeWhile_sublist _)).imp
    intro a b start near
    simp only [decide_eq_true_eq] at near ⊢
    omega
  · intro s member covers
    rw [Symbol.contains_eq, decide_eq_true_eq] at covers
    have size := ordered.reached s ((List.takeWhile_sublist _).mem (List.mem_reverse.1 member))
    have near := covers.near
    simp only [decide_eq_true_eq]
    omega

theorem foldl_better_filter (address : Int) (best : Option Symbol) (symbols : List Symbol) :
    (symbols.filter (·.contains address)).foldl (better address) best =
      symbols.foldl (better address) best := by
  rw [List.foldl_filter]
  congr 1
  funext best s
  unfold better
  split <;> rfl

/-! ## The narrowest symbol -/

theorem exists_narrowest (member : s ∈ symbols) (covers : s.Covers address) :
    ∃ t ∈ symbols, IsNarrowest symbols address t := by
  obtain ⟨t, chosen, least⟩ := (symbols.toFinset.filter (·.Covers address)).exists_min_image
    Symbol.size ⟨s, by simp [member, covers]⟩
  simp only [Finset.mem_filter, List.mem_toFinset] at chosen least
  exact ⟨t, chosen.1, chosen.2, fun r other reached => least r ⟨other, reached⟩⟩

/-- The answer of a search through all symbols: the first one of the narrowest. -/
def scan (symbols : List Symbol) (address : Int) : Option Symbol :=
  symbols.find? fun s => IsNarrowest symbols address s

theorem scan_eq_none_iff : scan symbols address = none ↔ ∀ s ∈ symbols, ¬ s.Covers address := by
  simp only [scan, List.find?_eq_none, decide_eq_true_eq]
  constructor
  · intro none s member covers
    obtain ⟨t, other, narrowest⟩ := exists_narrowest member covers
    exact none t other narrowest
  · intro none s member narrowest
    exact none s member narrowest.1

theorem of_scan (found : scan symbols address = some s) :
    s ∈ symbols ∧ IsNarrowest symbols address s := by
  have narrowest := List.find?_some found
  exact ⟨List.mem_of_find?_eq_some found, of_decide_eq_true narrowest⟩

theorem scan_cons_of_narrowest {c : Symbol} (narrowest : IsNarrowest (c :: symbols) address c) :
    scan (c :: symbols) address = some c :=
  List.find?_cons_of_pos (decide_eq_true narrowest)

/-- A symbol in front changes nothing when it is not one of the narrowest. -/
theorem scan_cons_of_not_narrowest {c : Symbol}
    (wide : ¬ IsNarrowest (c :: symbols) address c) :
    scan (c :: symbols) address = scan symbols address := by
  rw [scan, List.find?_cons_of_neg (by simpa using wide)]
  apply List.find?_congr
  intro s member
  rw [decide_eq_decide]
  constructor
  · rintro ⟨covers, least⟩
    exact ⟨covers, fun t later => least t (List.mem_cons_of_mem c later)⟩
  · rintro ⟨covers, least⟩
    refine ⟨covers, fun t listed reached => ?_⟩
    rcases List.mem_cons.1 listed with rfl | later
    · by_contra wider
      refine wide ⟨reached, fun r other there => ?_⟩
      rcases List.mem_cons.1 other with rfl | later
      · exact le_rfl
      · have narrower := least r later there
        omega
    · exact least t later reached

/-- Going through symbols from the last to the first, what is kept is the first of the narrowest. -/
theorem foldr_better (address : Int) (symbols : List Symbol) :
    symbols.foldr (fun s best => better address best s) none = scan symbols address := by
  -- on the symbols, the last of which is met first: a tie goes to the one met later
  induction symbols with
  | nil => rfl
  | cons c symbols ih =>
      rw [List.foldr_cons, ih]
      unfold better
      rw [Symbol.contains_eq]
      by_cases covers : c.Covers address
      · rw [if_pos (decide_eq_true covers)]
        cases found : scan symbols address with
        | none =>
            have others := scan_eq_none_iff.1 found
            refine (scan_cons_of_narrowest ⟨covers, fun t member reached => ?_⟩).symm
            rcases List.mem_cons.1 member with rfl | later
            · exact le_rfl
            · exact absurd reached (others t later)
        | some b =>
            obtain ⟨member, reached, least⟩ := of_scan found
            dsimp only
            by_cases narrow : c.size ≤ b.size
            · rw [if_pos narrow]
              refine (scan_cons_of_narrowest ⟨covers, fun t member there => ?_⟩).symm
              rcases List.mem_cons.1 member with rfl | later
              · exact le_rfl
              · exact narrow.trans (least t later there)
            · have wide : ¬ IsNarrowest (c :: symbols) address c := fun narrowest =>
                narrow (narrowest.2 b (List.mem_cons_of_mem c member) reached)
              rw [if_neg narrow, scan_cons_of_not_narrowest wide, found]
      · have wide : ¬ IsNarrowest (c :: symbols) address c := fun narrowest => covers narrowest.1
        rw [if_neg (by simpa using covers), scan_cons_of_not_narrowest wide]

/-! ## The answer of a table -/

/-- A table looks at its candidates only and finds what a search through all its symbols finds. -/
theorem IsOrdered.resolve_eq (ordered : t.IsOrdered) (address : Int) :
    t.resolve address = scan t.symbols address := by
  rw [resolve, ← foldl_better_filter, ordered.filter_candidates, foldl_better_filter,
    List.foldl_reverse, foldr_better]

/-- What is found stands before all the others that are as narrow. -/
theorem IsOrdered.place_le (ordered : t.IsOrdered) (found : scan t.symbols address = some s)
    {r : Symbol} (member : r ∈ t.symbols) (narrowest : IsNarrowest t.symbols address r) :
    place s ≤ place r := by
  obtain ⟨_, before, after, split, wide⟩ := List.find?_eq_some_iff_append.1 found
  have sorted := ordered.sorted
  rw [split, List.mem_append, List.mem_cons] at member
  rcases member with earlier | rfl | later
  · have wider := wide r earlier
    simp [narrowest] at wider
  · exact le_rfl
  · rw [split, List.pairwise_append, List.pairwise_cons] at sorted
    exact sorted.2.1.1 r later

theorem isNarrowest_congr {others : List Symbol} (same : ∀ s, s ∈ symbols ↔ s ∈ others) :
    IsNarrowest symbols address s ↔ IsNarrowest others address s := by
  simp only [IsNarrowest, same]

/-- A table of any symbols answers as a search through all of them would. An address that no symbol
    covers has no answer. Otherwise the answer is, of the narrowest symbols that cover the address,
    the first one in the order of the table. -/
theorem resolve_agrees_with_scan (symbols : List Symbol) :
    (ofList symbols).symbols.Perm symbols.eraseDups ∧
    (ofList symbols).symbols.Pairwise (fun a b => place a ≤ place b) ∧
    ∀ address,
      (ofList symbols).resolve address = scan (ofList symbols).symbols address ∧
      ((ofList symbols).resolve address = none ↔ ∀ s ∈ symbols, ¬ s.Covers address) ∧
      ∀ s, (ofList symbols).resolve address = some s →
        s ∈ symbols ∧ IsNarrowest symbols address s ∧
        ∀ r ∈ symbols, IsNarrowest symbols address r → place s ≤ place r := by
  have ordered := isOrdered_ofList symbols
  refine ⟨List.mergeSort_perm _ _, ordered.sorted, fun address => ?_⟩
  rw [ordered.resolve_eq]
  refine ⟨rfl, ?_, fun s found => ?_⟩
  · simp only [scan_eq_none_iff, mem_ofList]
  · obtain ⟨member, narrowest⟩ := of_scan found
    have same : ∀ r, IsNarrowest (ofList symbols).symbols address r ↔
        IsNarrowest symbols address r := fun _ => isNarrowest_congr fun _ => mem_ofList
    refine ⟨mem_ofList.1 member, (same s).1 narrowest, fun r other narrow => ?_⟩
    exact ordered.place_le found (mem_ofList.2 other) ((same r).2 narrow)

end SymbolTable

end CallProfile
