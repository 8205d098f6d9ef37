import CallProfile.Proofs.Lookups
import CallProfile.Proofs.Matches
import CallProfile.Proofs.Ranges
import CallProfile.Symbol.Entry

/-! # Symbols that only start

A symbol map may tell nothing but names and starts. Then a symbol covers the addresses up to the
next start, and an address belongs to the symbol that starts last before it or at it.
-/

namespace CallProfile

/-! ## Symbols that end where the next one starts -/

/-- Whether symbols are in order of their starts, each up to the next start above its own. -/
structure IsOpenMap (symbols : List Symbol) : Prop where
  sorted : (symbols.map fun s => (s.start : Int)).Pairwise (· ≤ ·)
  stop : ∀ s ∈ symbols,
    (s.stop : Int) = SymbolRow.openStop (symbols.map fun s => (s.start : Int)) s.start

namespace IsOpenMap

variable {symbols : List Symbol} {s t : Symbol} {address : Int}

theorem size_eq (opens : IsOpenMap symbols) (first : s ∈ symbols) (second : t ∈ symbols)
    (same : s.start = t.start) : s.size = t.size := by
  have stop := opens.stop s first
  rw [same, ← opens.stop t second] at stop
  unfold Symbol.size
  omega

theorem covers_iff (opens : IsOpenMap symbols) (member : s ∈ symbols) :
    s.Covers address ↔ (s.start : Int) ≤ address ∧
      (∀ t ∈ symbols, (t.start : Int) ≤ address → t.start ≤ s.start) ∧
      ∃ t ∈ symbols, address ≤ t.start := by
  have stop := opens.stop s member
  unfold Symbol.Covers
  constructor
  · rintro ⟨begun, before⟩
    refine ⟨begun, fun t other reached => ?_, ?_⟩
    · by_contra above
      have listed : (t.start : Int) ∈ symbols.map fun s => (s.start : Int) :=
        List.mem_map_of_mem other
      have higher : (s.start : Int) < t.start := by omega
      have next := SymbolRow.openStop_le opens.sorted listed higher
      omega
    · rcases SymbolRow.openStop_cases (symbols.map fun s => (s.start : Int)) s.start with
        ⟨listed, -⟩ | ⟨-, last⟩
      · obtain ⟨t, other, same⟩ := List.mem_map.1 listed
        exact ⟨t, other, by omega⟩
      · exact ⟨s, member, by omega⟩
  · rintro ⟨begun, greatest, t, other, below⟩
    refine ⟨begun, ?_⟩
    rcases SymbolRow.openStop_cases (symbols.map fun s => (s.start : Int)) s.start with
      ⟨listed, above⟩ | ⟨lowest, last⟩
    · obtain ⟨r, next, same⟩ := List.mem_map.1 listed
      by_contra reached
      have low := greatest r next (by omega)
      omega
    · have low := lowest t.start (List.mem_map_of_mem other)
      omega

theorem exists_covers (opens : IsOpenMap symbols) (first : s ∈ symbols)
    (begun : (s.start : Int) ≤ address) (second : t ∈ symbols) (below : address ≤ t.start) :
    ∃ r ∈ symbols, r.Covers address := by
  obtain ⟨r, chosen, greatest⟩ :=
    (symbols.toFinset.filter fun s => (s.start : Int) ≤ address).exists_max_image
      Symbol.start ⟨s, by simp [first, begun]⟩
  simp only [Finset.mem_filter, List.mem_toFinset] at chosen greatest
  exact ⟨r, chosen.1, (opens.covers_iff chosen.1).2
    ⟨chosen.2, fun u other reached => greatest u ⟨other, reached⟩, t, second, below⟩⟩

theorem forall_not_covers_iff (opens : IsOpenMap symbols) :
    (∀ s ∈ symbols, ¬ s.Covers address) ↔
      (∀ s ∈ symbols, address < s.start) ∨ ∀ s ∈ symbols, (s.start : Int) < address := by
  constructor
  · intro none
    by_contra between
    push Not at between
    obtain ⟨⟨s, first, begun⟩, t, second, below⟩ := between
    obtain ⟨r, member, covers⟩ := opens.exists_covers first begun second below
    exact none r member covers
  · intro outside s member covers
    obtain ⟨begun, -, t, other, below⟩ := (opens.covers_iff member).1 covers
    rcases outside with before | behind
    · have away := before s member
      omega
    · have away := behind t other
      omega

/-- Symbols with one start are equally narrow where they cover an address. -/
theorem isNarrowest (opens : IsOpenMap symbols) (member : s ∈ symbols) (covers : s.Covers address) :
    IsNarrowest symbols address s := by
  refine ⟨covers, fun t other reached => le_of_eq ?_⟩
  obtain ⟨begun, greatest, -⟩ := (opens.covers_iff member).1 covers
  obtain ⟨begun', greatest', -⟩ := (opens.covers_iff other).1 reached
  exact opens.size_eq member other
    (le_antisymm (greatest' s member begun) (greatest t other begun'))

end IsOpenMap

open SymbolRow in
/-- Rows without ends become symbols that end where the next one starts. -/
theorem isOpenMap_of_closed {rows : List SymbolRow} {symbols : List Symbol}
    (closed : List.Forall₂ (IsClosed ((sort rows).map (·.start))) (sort rows) symbols)
    (noStop : ∀ row ∈ rows, row.stop = none) : IsOpenMap symbols := by
  have starts : (sort rows).map (·.start) = symbols.map fun s => (s.start : Int) :=
    map_eq_of_forall₂ closed fun _ _ same => same.start.symm
  constructor
  · rw [← starts]
    exact pairwise_sort rows
  · intro s member
    obtain ⟨row, listed, same⟩ := exists_of_forall₂ closed member
    have stop := same.stop
    rw [closedStop, noStop row ((sort_perm rows).mem_iff.1 listed)] at stop
    rw [stop, ← starts, same.start]

/-! ## Entries without ends -/

namespace Entry

/-- Whether an entry of a symbol map gives a name and a start, and neither an end nor a size. -/
def IsOpen (entry : Datum) (pair : String × Nat) : Prop :=
  ∃ members, entry = .map members ∧
    (∃ name, Datum.lookup? "name" members = some name ∧ name.toText = .ok pair.1) ∧
    (∃ start, Datum.lookup? "start" members = some start ∧
      ∀ place, addressOf place start = .ok pair.2) ∧
    (∀ stop ∈ Datum.lookup? "end" members, stop = .null) ∧
    (∀ size ∈ Datum.lookup? "size" members, size = .null) ∧
    ∃ file, sourceOf members = .ok file

variable {entry : Datum} {entries : List Datum} {pair : String × Nat}
  {pairs : List (String × Nat)}

theorem row_of_isOpen (opens : IsOpen entry pair) (index : Nat) :
    ∃ row, Entry.row index entry = .ok row ∧ row.name = pair.1 ∧ row.start = pair.2 ∧
      row.stop = none := by
  obtain ⟨members, rfl, ⟨name, named, text⟩, ⟨start, begun, address⟩, noEnd, noSize, file,
    source⟩ := opens
  have missing : ∀ {found : Option Datum}, (∀ d ∈ found, d = .null) → found.getD .null = .null := by
    intro found null
    cases found with
    | none => rfl
    | some d => exact null d rfl
  refine ⟨{ name := pair.1, start := pair.2, stop := none, source := file }, ?_, rfl, rfl, rfl⟩
  simp only [Entry.row, named, begun, rowOf, address, stopOf, missing noEnd, missing noSize, text,
    source]
  rfl

theorem rowsFrom_of_isOpen (opens : List.Forall₂ IsOpen entries pairs) (index : Nat) :
    ∃ rows, rowsFrom index entries = .ok rows ∧
      rows.map (fun row => (row.name, row.start)) = pairs.map (fun p => (p.1, (p.2 : Int))) ∧
      ∀ row ∈ rows, row.stop = none := by
  induction opens generalizing index with
  | nil => exact ⟨[], rfl, rfl, nofun⟩
  | cons first _ ih =>
      obtain ⟨row, made, name, start, stop⟩ := row_of_isOpen first index
      obtain ⟨rows, rest, same, none⟩ := ih (index + 1)
      refine ⟨row :: rows, ?_, ?_, ?_⟩
      · rw [rowsFrom, made, rest]
        rfl
      · rw [List.map_cons, List.map_cons, same, name, start]
      · exact List.forall_mem_cons.2 ⟨stop, none⟩

theorem symbolsOfEntries_ok (opens : List.Forall₂ IsOpen entries pairs) :
    ∃ symbols, symbolsOfEntries entries = .ok symbols ∧ IsOpenMap symbols ∧
      (symbols.map fun s => (s.name, s.start)).Perm pairs := by
  obtain ⟨rows, read, content, noStop⟩ := rowsFrom_of_isOpen opens 0
  have nonneg : ∀ row ∈ rows, 0 ≤ row.start := by
    intro row member
    have listed := List.mem_map_of_mem (f := fun row => (row.name, row.start)) member
    rw [content] at listed
    obtain ⟨p, -, same⟩ := List.mem_map.1 listed
    have start : (p.2 : Int) = row.start := congrArg Prod.snd same
    omega
  obtain ⟨symbols, made, closed⟩ := closeRanges_ok nonneg
  refine ⟨symbols, ?_, isOpenMap_of_closed closed noStop, ?_⟩
  · rw [symbolsOfEntries, read]
    exact made
  · have widen : Function.Injective fun p : String × Nat => (p.1, (p.2 : Int)) := by
      rintro ⟨name, start⟩ ⟨other, later⟩ same
      simpa only [Prod.mk.injEq, Int.natCast_inj] using same
    rw [← List.map_perm_map_iff widen, ← content, List.map_map]
    have symbolsOf : (SymbolRow.sort rows).map (fun row => (row.name, row.start)) =
        symbols.map fun s => (s.name, (s.start : Int)) :=
      map_eq_of_forall₂ closed fun _ _ same => by rw [same.name, same.start]
    exact (List.Perm.of_eq symbolsOf.symm).trans ((SymbolRow.sort_perm rows).map _)

end Entry

/-! ## Lookups -/

/-- A symbol map without ends is a table for floor lookups. It has one symbol for each entry. An
    address below all starts or above all of them has no answer. Any other address is answered with
    the greatest start that is not above it, and of the symbols that start there with the one of the
    least name. -/
theorem resolve_openEntries {entries : List Datum} {pairs : List (String × Nat)}
    (opens : List.Forall₂ Entry.IsOpen entries pairs) :
    ∃ symbols, symbolsOfEntries entries = .ok symbols ∧
      (symbols.map fun s => (s.name, s.start)).Perm pairs ∧
      ∀ address,
        ((SymbolTable.ofList symbols).resolve address = none ↔
          (∀ p ∈ pairs, address < p.2) ∨ ∀ p ∈ pairs, (p.2 : Int) < address) ∧
        ∀ s, (SymbolTable.ofList symbols).resolve address = some s →
          s ∈ symbols ∧ (s.start : Int) ≤ address ∧
          (∀ p ∈ pairs, (p.2 : Int) ≤ address → p.2 ≤ s.start) ∧
          ∀ p ∈ pairs, p.2 = s.start → s.name ≤ p.1 := by
  obtain ⟨symbols, made, openMap, content⟩ := Entry.symbolsOfEntries_ok opens
  have listed : ∀ p, p ∈ pairs ↔ ∃ s ∈ symbols, (s.name, s.start) = p := fun p => by
    rw [← content.mem_iff, List.mem_map]
  have ordered := SymbolTable.isOrdered_ofList symbols
  refine ⟨symbols, made, content, fun address => ⟨?_, fun s found => ?_⟩⟩
  · simp only [ordered.resolve_eq, SymbolTable.scan_eq_none_iff, SymbolTable.mem_ofList,
      openMap.forall_not_covers_iff, listed]
    simp
  · rw [ordered.resolve_eq] at found
    obtain ⟨member, covers, -⟩ := SymbolTable.of_scan found
    rw [SymbolTable.mem_ofList] at member
    obtain ⟨begun, greatest, above⟩ := (openMap.covers_iff member).1 covers
    refine ⟨member, begun, fun p pair reached => ?_, fun p pair same => ?_⟩
    · obtain ⟨t, other, rfl⟩ := (listed p).1 pair
      exact greatest t other reached
    · obtain ⟨t, other, rfl⟩ := (listed p).1 pair
      dsimp only at same ⊢
      -- symbols with one start cover the same addresses and are equally narrow
      have covers' : t.Covers address :=
        (openMap.covers_iff other).2 (by rw [same]; exact ⟨begun, greatest, above⟩)
      have narrowest : IsNarrowest (SymbolTable.ofList symbols).symbols address t :=
        (SymbolTable.isNarrowest_congr fun _ => SymbolTable.mem_ofList).2
          (openMap.isNarrowest other covers')
      have first := ordered.place_le found (SymbolTable.mem_ofList.2 other) narrowest
      have size := openMap.size_eq other member same
      simpa [SymbolTable.place, Prod.Lex.toLex_le_toLex, same, size] using first

/-- A map with two names for one start, a gap between the starts and starts as texts. -/
def aliasedEntries : List Datum :=
  [ .map [(.text "name", .text "main"), (.text "start", .text "0x20")],
    .map [(.text "name", .text "init"), (.text "start", .int 16), (.text "end", .null)],
    .map [(.text "start", .text " 20 "), (.text "name", .text "entry")],
    .map [(.text "name", .text "exit"), (.text "start", .int 4096)] ]

theorem resolve_openEntries_aliased :
    let pairs := [("main", 32), ("init", 16), ("entry", 32), ("exit", 4096)]
    List.Forall₂ Entry.IsOpen aliasedEntries pairs ∧
    ∃ symbols, symbolsOfEntries aliasedEntries = .ok symbols ∧
      (symbols.map fun s => (s.name, s.start)).Perm pairs ∧
      (SymbolTable.ofList symbols).resolve 15 = none ∧
      ((SymbolTable.ofList symbols).resolve 4095).map (·.name) = some "entry" := by
  intro pairs
  have noEnd : ∀ d ∈ (none : Option Datum), d = .null := nofun
  have null : ∀ d ∈ some Datum.null, d = .null := fun _ given => (Option.some.inj given).symm
  have opens : List.Forall₂ Entry.IsOpen aliasedEntries pairs :=
    .cons ⟨_, rfl, ⟨_, rfl, rfl⟩, ⟨_, rfl, fun _ => rfl⟩, noEnd, noEnd, _, rfl⟩ <|
    .cons ⟨_, rfl, ⟨_, rfl, rfl⟩, ⟨_, rfl, fun _ => rfl⟩, null, noEnd, _, rfl⟩ <|
    .cons ⟨_, rfl, ⟨_, rfl, rfl⟩, ⟨_, rfl, fun _ => rfl⟩, noEnd, noEnd, _, rfl⟩ <|
    .cons ⟨_, rfl, ⟨_, rfl, rfl⟩, ⟨_, rfl, fun _ => rfl⟩, noEnd, noEnd, _, rfl⟩ .nil
  obtain ⟨symbols, made, content, lookups⟩ := resolve_openEntries opens
  refine ⟨opens, symbols, made, content, (lookups 15).1.2 (.inl (by decide)), ?_⟩
  cases found : (SymbolTable.ofList symbols).resolve 4095 with
  | none => exact absurd ((lookups 4095).1.1 found) (by decide)
  | some s =>
      obtain ⟨member, begun, greatest, least⟩ := (lookups 4095).2 s found
      have listed := content.mem_iff.1 (List.mem_map_of_mem member)
      have greatest := greatest ("main", 32) (by decide) (by decide)
      simp only [pairs, List.mem_cons, Prod.mk.injEq, List.not_mem_nil, or_false] at listed
      -- of the four, two start at the greatest start and one of these has the least name
      rcases listed with ⟨name, start⟩ | ⟨name, start⟩ | ⟨name, start⟩ | ⟨name, start⟩
      · have first := least ("entry", 32) (by decide) start.symm
        rw [name] at first
        exact absurd first (by decide)
      · omega
      · exact congrArg some name
      · omega

end CallProfile
