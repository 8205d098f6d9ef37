import CallProfile.Proofs.Outcomes
import CallProfile.Proofs.Words
import CallProfile.Symbol.Notation
import Mathlib.Logic.Relation

/-! # Symbol maps in other notations

What the row of an entry is does not depend on the notation of its addresses, nor on whether it
tells an end or a size. So a symbol map has the same symbols in every notation.
-/

namespace CallProfile

open Text

/-! ## Addresses -/

theorem Text.numeral?_marked (mark : BaseMark) (n : HexNumeral) :
    numeral? 16 (mark.text ++ n.digits) = some (n.value : Int) := by
  obtain ⟨c, rest, digits⟩ := List.exists_cons_of_ne_nil n.digits_ne_nil
  have first : c ≠ '_' := by
    rintro rfl
    have digit := n.isHexDigit '_' (by rw [digits]; exact List.mem_cons_self)
    cases digit
  have range : ∀ d ∈ n.digits, 33 ≤ d.toNat ∧ d.toNat ≤ 126 := fun d member => by
    have range := (n.isHexDigit d member).range
    omega
  have unmarked : ∀ x, x = 'x' ∨ x = 'X' → dropBaseMark 16 ('0' :: x :: n.digits) = n.digits := by
    rintro x (rfl | rfl) <;> rw [digits] <;> simp [dropBaseMark, first]
  have behind : ∀ x, x = 'x' ∨ x = 'X' →
      numeral? 16 ('0' :: x :: n.digits) = some (n.value : Int) := by
    intro x isMark
    rw [numeral?_unsigned 16, unmarked x isMark, digits?_hexNumeral]
    · rfl
    · rcases isMark with rfl | rfl <;> simpa using range
    · simp
  cases mark with
  | none => exact numeral?_hexNumeral n
  | lower => exact behind 'x' (.inl rfl)
  | upper => exact behind 'X' (.inr rfl)

theorem WrittenAddress.ink (a : WrittenAddress) :
    ∀ c ∈ a.mark.text ++ a.numeral.digits, isBlank c = false := by
  have marked (mark : BaseMark) : ∀ c ∈ mark.text, isBlank c = false := by
    cases mark with
    | none => nofun
    | lower => exact List.forall_mem_cons.2 ⟨rfl, List.forall_mem_singleton.2 rfl⟩
    | upper => exact List.forall_mem_cons.2 ⟨rfl, List.forall_mem_singleton.2 rfl⟩
  intro c member
  rcases List.mem_append.1 member with mark | digit
  · exact marked a.mark c mark
  · exact (a.numeral.isHexDigit c digit).isBlank

/-- A notation is read as its address. -/
theorem Datum.Notes.readAs {d : Datum} {n : Nat} (notes : d.Notes n) : Entry.ReadAs d n := by
  intro place
  cases notes with
  | int n => rfl
  | text a =>
      have read : numeral? 16 (trim a.text.toList) = some (a.numeral.value : Int) := by
        rw [WrittenAddress.text, String.toList_ofList,
          trim_blanks a.isBlank_before a.ink a.isBlank_after, numeral?_marked]
      rw [addressOf, Datum.plain, read]
      all_goals nofun

namespace Entry

variable {a b d e : Datum} {n : Int}

/-- The address that a value is read as, if it is one. -/
def address? (d : Datum) : Option Int :=
  (addressOf "" d).toOption

theorem toOption_addressOf (place : String) (d : Datum) :
    (addressOf place d).toOption = address? d := by
  rw [address?]
  unfold addressOf
  split
  · rfl
  · rfl
  · split <;> rfl

theorem address?_of_readAs (read : ReadAs d n) : address? d = some n := by
  rw [address?, read]
  rfl

theorem ReadAs.not_null (read : ReadAs d n) : d ≠ .null := by
  rintro rfl
  have none : address? .null = none := rfl
  exact absurd ((address?_of_readAs read).symm.trans none) nofun

/-- The end that a mapping tells, faults apart. -/
def stop? (entries : List (Datum × Datum)) (start : Int) : Option (Option Int) :=
  let stop := (Datum.lookup? "end" entries).getD .null
  let size := (Datum.lookup? "size" entries).getD .null
  if stop.isNull then
    if size.isNull then some none else (address? size).map fun n => some (start + n)
  else (address? stop).map some

theorem toOption_map {α β : Type} {f : α → β} {x : Except Fault α} :
    (x.map f).toOption = x.toOption.map f := by
  cases x <;> rfl

theorem toOption_stopOf (index : Nat) (entries : List (Datum × Datum)) (start : Int) :
    (stopOf index entries start).toOption = stop? entries start := by
  rw [stopOf, stop?]
  split
  · split
    · rfl
    · rw [toOption_map, toOption_addressOf]
  · rw [toOption_map, toOption_addressOf]

/-- The row of an entry, faults apart. -/
def row? : Datum → Option SymbolRow
  | .map entries => do
      let name ← Datum.lookup? "name" entries
      let start ← (Datum.lookup? "start" entries).bind address?
      let stop ← stop? entries start
      return { name := ← name.toText.toOption, start, stop
               source := ← (sourceOf entries).toOption }
  | _ => none

theorem toOption_row (index : Nat) (d : Datum) : (row index d).toOption = row? d := by
  cases d with
  | map entries =>
      rw [row, row?]
      cases Datum.lookup? "name" entries with
      | none => rfl
      | some name =>
          cases Datum.lookup? "start" entries with
          | none => rfl
          | some start =>
              dsimp only
              rw [rowOf, toOption_bind, toOption_addressOf]
              refine congrArg _ (funext fun first => ?_)
              rw [toOption_bind, toOption_stopOf]
              refine congrArg _ (funext fun stop => ?_)
              rw [toOption_bind]
              refine congrArg _ (funext fun text => ?_)
              rw [toOption_bind]
              rfl
  | _ => rfl

/-! ## Entries in other notations -/

variable {a b : List (Datum × Datum)} {names : List String} {name : String}

theorem sourceOf_of_agree (agree : AgreeBut names a b) (file : "file" ∉ names)
    (source : "source_file" ∉ names) : sourceOf a = sourceOf b := by
  rw [sourceOf, sourceOf, agree "file" file, agree "source_file" source]

/-- Whether two values are read as one address, or as none. -/
structure ReadAlike (d e : Datum) : Prop where
  isNull : d.isNull = e.isNull
  address : address? d = address? e

theorem ReadAs.alike (read : ReadAs d n) (reads : ReadAs e n) : ReadAlike d e where
  isNull := by rw [Datum.isNull_of_ne read.not_null, Datum.isNull_of_ne reads.not_null]
  address := by rw [address?_of_readAs read, address?_of_readAs reads]

/-- Whether two mappings hold under a text what is read alike. -/
def HoldAlike (a b : List (Datum × Datum)) (name : String) : Prop :=
  ReadAlike ((Datum.lookup? name a).getD .null) ((Datum.lookup? name b).getD .null)

theorem AgreeBut.holdAlike (agree : AgreeBut names a b) (other : name ∉ names) :
    HoldAlike a b name := by
  rw [HoldAlike, agree name other]
  exact ⟨rfl, rfl⟩

theorem stop?_congr (ends : HoldAlike a b "end") (sizes : HoldAlike a b "size") (start : Int) :
    stop? a start = stop? b start := by
  rw [stop?, stop?, ends.isNull, ends.address, sizes.isNull, sizes.address]

theorem row?_congr (named : Datum.lookup? "name" a = Datum.lookup? "name" b)
    (starts : (Datum.lookup? "start" a).bind address? = (Datum.lookup? "start" b).bind address?)
    (stops : ∀ start ∈ (Datum.lookup? "start" b).bind address?, stop? a start = stop? b start)
    (sources : sourceOf a = sourceOf b) : row? (.map a) = row? (.map b) := by
  rw [row?, row?, named, starts, sources]
  refine congrArg _ (funext fun name => ?_)
  cases found : (Datum.lookup? "start" b).bind address? with
  | none => rfl
  | some start =>
      have stop := stops start found
      dsimp only [Option.bind_eq_bind, Option.bind_some]
      rw [stop]

theorem row?_of_respelled (respelled : Respelled d e) : row? d = row? e := by
  cases respelled with
  | @address a b name d e n known held notes holds notes' others =>
      have alike : ReadAlike d e := notes.readAs.alike notes'.readAs
      have each : ∀ other, HoldAlike a b other := by
        intro other
        by_cases same : other = name
        · rw [HoldAlike, same, held, holds]
          exact alike
        · exact others.holdAlike (by simpa using same)
      have apart : ∀ other, other ∉ ["start", "end", "size"] → other ∉ [name] := by
        intro other outside same
        rw [List.mem_singleton.1 same] at outside
        exact outside known
      refine row?_congr (others "name" (apart _ (by decide))) ?_
        (fun start _ => stop?_congr (each "end") (each "size") start)
        (sourceOf_of_agree others (apart _ (by decide)) (apart _ (by decide)))
      by_cases same : "start" = name
      · rw [same, held, holds]
        exact alike.address
      · rw [others "start" (by simpa using same)]
  | @size a b start stop size first last starts first_read stops last_read above unstopped sized
      size_read others =>
      have kept : Datum.lookup? "start" b = some start :=
        (others "start" (by decide)).symm.trans starts
      have before : stop? a first = some (some last) := by
        rw [stop?, stops, Option.getD_some, Datum.isNull_of_ne last_read.not_null,
          if_neg Bool.false_ne_true, address?_of_readAs last_read]
        rfl
      have after : stop? b first = some (some (first + (last - first))) := by
        rw [stop?, unstopped, if_pos Datum.isNull_null, sized, Option.getD_some,
          Datum.isNull_of_ne size_read.not_null, if_neg Bool.false_ne_true,
          address?_of_readAs size_read]
        rfl
      refine row?_congr (others "name" (by decide)) (by rw [starts, kept]) ?_
        (sourceOf_of_agree others (by decide) (by decide))
      intro start' read
      rw [kept, Option.bind_some, address?_of_readAs first_read] at read
      have whole : first + (last - first) = last := by omega
      rw [← Option.some.inj read, before, after, whole]

theorem row?_of_eqvGen (respelled : Relation.EqvGen Respelled d e) : row? d = row? e := by
  induction respelled with
  | rel d e step => exact row?_of_respelled step
  | refl d => rfl
  | symm d e _ ih => exact ih.symm
  | trans d e f _ _ first second => exact first.trans second

theorem row_of_eqvGen {index : Nat} {r : SymbolRow} (respelled : Relation.EqvGen Respelled d e)
    (made : row index d = .ok r) : row index e = .ok r := by
  rw [← toOption_eq_some_iff, toOption_row] at made ⊢
  rw [← row?_of_eqvGen respelled, made]

theorem rowsFrom_of_eqvGen {index : Nat} {entries others : List Datum} {rows : List SymbolRow}
    (respelled : List.Forall₂ (Relation.EqvGen Respelled) entries others)
    (made : rowsFrom index entries = .ok rows) : rowsFrom index others = .ok rows := by
  induction respelled generalizing index rows with
  | nil => exact made
  | cons first _ ih =>
      rw [rowsFrom] at made ⊢
      obtain ⟨r, read, made⟩ := bind_eq_ok_iff.1 made
      obtain ⟨rest, reads, made⟩ := bind_eq_ok_iff.1 made
      exact bind_eq_ok_iff.2 ⟨r, row_of_eqvGen first read,
        bind_eq_ok_iff.2 ⟨rest, ih reads, made⟩⟩

end Entry

/-- A symbol map has the same symbols in every notation. -/
theorem symbolsOfEntries_respelled {entries others : List Datum} {symbols : List Symbol}
    (respelled : List.Forall₂ (Relation.EqvGen Entry.Respelled) entries others)
    (made : symbolsOfEntries entries = .ok symbols) : symbolsOfEntries others = .ok symbols := by
  obtain ⟨rows, read, closed⟩ := bind_eq_ok_iff.1 made
  exact bind_eq_ok_iff.2 ⟨rows, Entry.rowsFrom_of_eqvGen respelled read, closed⟩

/-! ## A symbol map in two notations -/

/-- The address 4096 as a text with a mark, zeros and blanks. -/
def paddedAddress : WrittenAddress where
  before := [' ', '\t']
  mark := .upper
  numeral := .ofNat 6 4096
  after := ['\n']
  isBlank_before := List.forall_mem_cons.2 ⟨rfl, List.forall_mem_singleton.2 rfl⟩
  isBlank_after := List.forall_mem_singleton.2 rfl

/-- The entry of a symbol from an address to another one. -/
def rangeEntry (start stop : Datum) : Datum :=
  .map [(.text "name", .text "main"), (.text "start", start), (.text "end", stop)]

/-- The entry of a symbol with an address and a size. -/
def sizeEntry (start size : Datum) : Datum :=
  .map [(.text "size", size), (.text "name", .text "main"), (.text "start", start)]

/-- An entry that is open, behind the others. -/
def openEntry : Datum :=
  .map [(.text "name", .text "tail"), (.text "start", .text "1020")]

theorem respelled_rangeEntry : Relation.EqvGen Entry.Respelled
    (rangeEntry (.int 4096) (.text "101f")) (sizeEntry (.text paddedAddress.text) (.int 31)) := by
  refine .trans _ (rangeEntry (.text paddedAddress.text) (.text "101f")) _ (.rel _ _ ?_)
    (.rel _ _ ?_)
  · refine @Entry.Respelled.address _ _ "start" _ _ _ (by decide) rfl (.int 4096) rfl
      (.text paddedAddress) ?_
    intro name other
    simp [Datum.lookup?_text_cons, List.mem_singleton.not.1 other]
  · have last : Entry.ReadAs (.text "101f") 4127 := fun _ => rfl
    refine .size rfl (Datum.Notes.text paddedAddress).readAs rfl last (by decide) rfl rfl
      (fun _ => rfl) ?_
    intro name other
    simp only [List.mem_cons, List.not_mem_nil, or_false, not_or] at other
    simp [Datum.lookup?_text_cons, other.1, other.2]

def notedEntries : List Datum :=
  [rangeEntry (.int 4096) (.text "101f"), openEntry]

def renotedEntries : List Datum :=
  [sizeEntry (.text paddedAddress.text) (.int 31), openEntry]

def notedSymbols : List Symbol :=
  [⟨"main", 4096, 4127, none, by decide⟩, ⟨"tail", 4128, 4129, none, by decide⟩]

theorem symbolsOfEntries_notedEntries : symbolsOfEntries notedEntries = .ok notedSymbols := by
  let rows : List SymbolRow :=
    [{ name := "main", start := 4096, stop := some 4127, source := none },
      { name := "tail", start := 4128, stop := none, source := none }]
  have sorted : SymbolRow.sort rows = rows := List.mergeSort_of_pairwise (by decide)
  have read : Entry.rowsFrom 0 notedEntries = .ok rows :=
    toOption_eq_some_iff.1 (by decide +kernel)
  have closed : closeRanges rows = .ok notedSymbols := by
    rw [closeRanges, sorted]
    exact toOption_eq_some_iff.1 (by decide +kernel)
  exact bind_eq_ok_iff.2 ⟨rows, read, closed⟩

theorem symbolsOfEntries_respelled_notedEntries :
    List.Forall₂ (Relation.EqvGen Entry.Respelled) notedEntries renotedEntries ∧
      symbolsOfEntries notedEntries = .ok notedSymbols ∧
      symbolsOfEntries renotedEntries = .ok notedSymbols := by
  have respelled : List.Forall₂ (Relation.EqvGen Entry.Respelled) notedEntries renotedEntries :=
    .cons respelled_rangeEntry (.cons (.refl _) .nil)
  exact ⟨respelled, symbolsOfEntries_notedEntries,
    symbolsOfEntries_respelled respelled symbolsOfEntries_notedEntries⟩

end CallProfile
