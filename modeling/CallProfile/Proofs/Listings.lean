import CallProfile.Proofs.Ranges
import CallProfile.Proofs.Words
import CallProfile.Symbol.Written

/-! # Listings read back

What the tool writes about the symbols of code is read back: names with spaces in them, sizes that
only their length tells from types, and paths with colons in them.
-/

namespace CallProfile

open Text

/-! ## Names -/

section

variable {word : List Char} {words : List (List Char)}

theorem join_words_cons (word next : List Char) (words : List (List Char)) :
    join [' '] (word :: next :: words) = word ++ ' ' :: join [' '] (next :: words) := by
  simp [join, List.intercalate_cons_cons]

theorem join_word (word : List Char) : join [' '] [word] = word := by
  simp [join]

theorem IsWord.head (isWord : IsWord word) (rest : List Char) :
    ∀ c ∈ (word ++ rest).head?, isBlank c = false := by
  obtain ⟨c, word, rfl⟩ := List.exists_cons_of_ne_nil isWord.1
  rintro _ ⟨⟩
  exact isWord.2 c List.mem_cons_self

theorem head_join (isWord : ∀ word ∈ words, IsWord word) :
    ∀ c ∈ (join [' '] words).head?, isBlank c = false := by
  cases words with
  | nil => nofun
  | cons word words =>
      have first := (List.forall_mem_cons.1 isWord).1
      cases words with
      | nil => simpa only [join_word, List.append_nil] using first.head []
      | cons next words =>
          rw [join_words_cons]
          exact first.head _

theorem join_ne_nil (isWord : ∀ word ∈ words, IsWord word) (nonempty : words ≠ []) :
    join [' '] words ≠ [] := by
  obtain ⟨word, words, rfl⟩ := List.exists_cons_of_ne_nil nonempty
  have first := (List.forall_mem_cons.1 isWord).1
  cases words with
  | nil =>
      rw [join_word]
      exact first.1
  | cons next words => simp [join_words_cons, first.1]

theorem last_join (isWord : ∀ word ∈ words, IsWord word) :
    ∀ c ∈ (join [' '] words).getLast?, isBlank c = false := by
  induction words with
  | nil => nofun
  | cons word words ih =>
      obtain ⟨first, others⟩ := List.forall_mem_cons.1 isWord
      cases words with
      | nil =>
          rw [join_word]
          exact fun c last => first.2 c (List.mem_of_getLast? last)
      | cons next words =>
          have rest := join_ne_nil others (List.cons_ne_nil next words)
          have same : (word ++ ' ' :: join [' '] (next :: words)).getLast? =
              (join [' '] (next :: words)).getLast? := by
            rw [← List.singleton_append, ← List.append_assoc, List.getLast?_append_of_ne_nil _ rest]
          rw [join_words_cons, same]
          exact ih others

/-- The characters of a name are those of its words and single spaces. -/
theorem mem_join (isWord : ∀ word ∈ words, IsWord word) {c : Char}
    (member : c ∈ join [' '] words) : isBlank c = false ∨ c = ' ' := by
  induction words with
  | nil => simp [join] at member
  | cons word words ih =>
      obtain ⟨first, others⟩ := List.forall_mem_cons.1 isWord
      cases words with
      | nil =>
          rw [join_word] at member
          exact .inl (first.2 c member)
      | cons next words =>
          rw [join_words_cons, List.mem_append, List.mem_cons] at member
          rcases member with here | rfl | later
          · exact .inl (first.2 c here)
          · exact .inr rfl
          · exact ih others later

/-- A name comes back when its first word is cut off and put back. -/
theorem exists_wordsThenRest_join (isWord : ∀ word ∈ words, IsWord word) (nonempty : words ≠ []) :
    ∃ first more, wordsThenRest 1 (join [' '] words) = first :: more ∧
      join [' '] (first :: more) = join [' '] words := by
  obtain ⟨word, words, rfl⟩ := List.exists_cons_of_ne_nil nonempty
  obtain ⟨⟨some, ink⟩, others⟩ := List.forall_mem_cons.1 isWord
  cases words with
  | nil =>
      have alone : wordsThenRest 1 (word ++ []) = word :: wordsThenRest 0 [] :=
        wordsThenRest_word 0 some ink nofun
      rw [List.append_nil] at alone
      exact ⟨word, [], by rw [join_word, alone]; rfl, rfl⟩
  | cons next words =>
      refine ⟨word, [join [' '] (next :: words)], ?_, ?_⟩
      · rw [join_words_cons, wordsThenRest_word 0 some ink (by simp [isBlank]),
          wordsThenRest_blank 0 rfl, wordsThenRest_zero
            (join_ne_nil others (List.cons_ne_nil next words)) (head_join others)]
      · rw [join_words_cons, join_word, join_words_cons]

end

/-! ## Places -/

namespace ListedPlace

open Decimal

variable (p : ListedPlace)

theorem mem_digitsOf {n : Nat} {c : Char} (member : c ∈ digitsOf n) :
    isBlank c = false ∧ c ≠ ':' := by
  have digit := digits_digitsOf n c member
  have range := isDigit_iff.1 digit
  refine ⟨isBlank_of_range (by omega) (by omega), ?_⟩
  rintro rfl
  cases digit

theorem text_ne_nil : p.text ≠ [] := by
  simp [text]

theorem head_text : ∀ c ∈ p.text.head?, isBlank c = false := by
  unfold text
  cases path : p.path with
  | nil =>
      rintro _ ⟨⟩
      rfl
  | cons c rest =>
      rintro _ ⟨⟩
      exact p.isPath.head c (by rw [path]; rfl)

theorem last_text : ∀ c ∈ p.text.getLast?, isBlank c = false := by
  intro c last
  rw [text, ← List.singleton_append, ← List.append_assoc,
    List.getLast?_append_of_ne_nil _ (digitsOf_ne_nil p.line)] at last
  exact (mem_digitsOf (List.mem_of_getLast? last)).1

theorem inLine_text : ∀ c ∈ p.text, endsLine c = false := by
  intro c member
  rw [text, List.mem_append, List.mem_cons] at member
  rcases member with inPath | rfl | digit
  · exact (p.isPath.inLine c inPath).2
  · rfl
  · exact endsLine_of_not_blank (mem_digitsOf digit).1

theorem fileOf_text : Listing.fileOf p.text = p.file? := by
  have before : beforeLast ':' (trim p.text) = p.path := by
    rw [trim_of_ends p.head_text p.last_text]
    exact beforeLast_append p.path fun member => (mem_digitsOf member).2 rfl
  rw [Listing.fileOf, before, file?]
  simp [List.isEmpty_iff]

end ListedPlace

/-! ## Lines -/

namespace ListedSymbol

variable (s : ListedSymbol)

/-- What stands behind the tab of a line. -/
def placeText : List Char :=
  match s.place with
  | none => []
  | some p => p.text

theorem kind_range : 65 ≤ s.kind.toNat ∧ s.kind.toNat ≤ 122 := by
  have alpha : (decide ('A' ≤ s.kind ∧ s.kind ≤ 'Z') ||
      (decide ('a' ≤ s.kind) && decide (s.kind ≤ 'z'))) = true := s.isAlpha
  rw [Bool.or_eq_true, Bool.and_eq_true, decide_eq_true_eq, decide_eq_true_eq,
    decide_eq_true_eq] at alpha
  rcases alpha with ⟨least, most⟩ | ⟨least, most⟩
  · exact ⟨least, Nat.le_trans most (by decide)⟩
  · exact ⟨Nat.le_trans (by decide) least, most⟩

theorem isBlank_kind : isBlank s.kind = false := by
  have range := s.kind_range
  exact isBlank_of_range (by omega) (by omega)

theorem isType_kind : Listing.isType [s.kind] = true := by
  have range := s.kind_range
  rw [Listing.isType, isLetter, if_pos (by omega)]
  exact s.isAlpha

theorem contains_kind : Listing.codeTypes.contains [s.kind] = s.isCode := by
  simp [Listing.codeTypes, isCode, Bool.or_assoc]

theorem isBlank_digit {n : HexNumeral} {c : Char} (member : c ∈ n.digits) : isBlank c = false :=
  (n.isHexDigit c member).isBlank

theorem mem_front {c : Char} (member : c ∈ s.front) : isBlank c = false ∨ c = ' ' := by
  have behind : c ∈ s.kind :: [' '] → isBlank c = false ∨ c = ' ' := by
    rintro (_ | ⟨_, _ | ⟨_, ⟨⟩⟩⟩)
    · exact .inl s.isBlank_kind
    · exact .inr rfl
  unfold front at member
  cases size : s.size with
  | none =>
      rw [size] at member
      rcases List.mem_append.1 member with digit | later
      · exact .inl (isBlank_digit digit)
      · exact (List.mem_cons.1 later).elim .inr behind
  | some n =>
      rw [size] at member
      rcases List.mem_append.1 member with digit | later
      · exact .inl (isBlank_digit digit)
      rcases List.mem_cons.1 later with space | later
      · exact .inr space
      rcases List.mem_append.1 later with digit | later
      · exact .inl (isBlank_digit digit)
      · exact (List.mem_cons.1 later).elim .inr behind

theorem not_mem_tab : '\t' ∉ s.front ++ s.name := by
  intro member
  rcases List.mem_append.1 member with front | name
  · rcases s.mem_front front with ink | space <;> contradiction
  · rcases mem_join s.isWord name with ink | space <;> contradiction

theorem cutAtFirst_text : cutAtFirst '\t' s.text = (s.front ++ s.name, s.placeText) := by
  unfold text placeText
  cases s.place with
  | none => exact cutAtFirst_absent s.not_mem_tab
  | some p => exact cutAtFirst_append s.not_mem_tab p.text

theorem inLine_text : ∀ c ∈ s.text, endsLine c = false := by
  have fields : ∀ c ∈ s.front ++ s.name, endsLine c = false := by
    intro c member
    have ink : isBlank c = false ∨ c = ' ' :=
      (List.mem_append.1 member).elim s.mem_front (mem_join s.isWord)
    rcases ink with ink | rfl
    · exact endsLine_of_not_blank ink
    · rfl
  unfold text
  cases s.place with
  | none => exact fields
  | some p =>
      intro c member
      rcases List.mem_append.1 member with field | behind
      · exact fields c field
      rcases List.mem_cons.1 behind with rfl | place
      · rfl
      · exact p.inLine_text c place

theorem number_digits (n : HexNumeral) : Listing.number n.digits = .ok (n.value : Int) := by
  rw [Listing.number, numeral?_hexNumeral]

theorem codeRow_eq :
    Listing.codeRow s.address.digits (s.size.map fun n => (n.value : Int)) s.name s.placeText =
      .ok s.row := by
  have source : (if s.placeText.isEmpty then none else Listing.fileOf s.placeText) =
      s.place.bind ListedPlace.file? := by
    unfold placeText
    cases s.place with
    | none => rfl
    | some p =>
        rw [if_neg (by simp [p.text_ne_nil]), p.fileOf_text]
        rfl
  have name : trim s.name = s.name := trim_of_ends (head_join s.isWord) (last_join s.isWord)
  rw [Listing.codeRow, number_digits]
  simp only [bind, Except.bind, pure, Except.pure]
  rw [source, name]
  unfold row stop
  cases s.size with
  | none => rfl
  | some n => simp only [Option.map_some, Int.natCast_eq_zero]

/-- A line without a size has its type after the address, and any words behind it. -/
theorem wordsThenRest_sizeless (sizeless : s.size = none) :
    wordsThenRest 3 (s.front ++ s.name) =
      s.address.digits :: [s.kind] :: wordsThenRest 1 s.name := by
  have kind : ∀ c ∈ [s.kind], isBlank c = false := by simp [s.isBlank_kind]
  have fields : s.front ++ s.name = s.address.digits ++ ' ' :: ([s.kind] ++ ' ' :: s.name) := by
    simp [front, sizeless]
  rw [fields, wordsThenRest_word 2 s.address.digits_ne_nil (fun c => isBlank_digit)
    (by simp [isBlank]), wordsThenRest_blank 2 rfl, wordsThenRest_word 1 (by simp) kind
    (by simp [isBlank]), wordsThenRest_blank 1 rfl]

/-- A line with a size has four fields, the last of them the whole name. -/
theorem wordsThenRest_sized {n : HexNumeral} (sized : s.size = some n) :
    wordsThenRest 3 (s.front ++ s.name) = [s.address.digits, n.digits, [s.kind], s.name] := by
  have kind : ∀ c ∈ [s.kind], isBlank c = false := by simp [s.isBlank_kind]
  have whole : wordsThenRest 0 s.name = [s.name] :=
    wordsThenRest_zero (join_ne_nil s.isWord s.words_ne_nil) (head_join s.isWord)
  have fields : s.front ++ s.name =
      s.address.digits ++ ' ' :: (n.digits ++ ' ' :: ([s.kind] ++ ' ' :: s.name)) := by
    simp [front, sized]
  rw [fields, wordsThenRest_word 2 s.address.digits_ne_nil (fun c => isBlank_digit)
    (by simp [isBlank]), wordsThenRest_blank 2 rfl, wordsThenRest_word 1 n.digits_ne_nil
    (fun c => isBlank_digit) (by simp [isBlank]), wordsThenRest_blank 1 rfl,
    wordsThenRest_word 0 (by simp) kind (by simp [isBlank]), wordsThenRest_blank 0 rfl, whole]

theorem isType_size {n : HexNumeral} (sized : s.size = some n) :
    Listing.isType n.digits = false := by
  have long := s.two_le_size n sized
  match digits : n.digits with
  | [] => rfl
  | [_] => simp [digits] at long
  | _ :: _ :: _ => rfl

theorem row_text : Listing.row s.text = .ok (if s.isCode then some s.row else none) := by
  have read := s.codeRow_eq
  rw [Listing.row, cutAtFirst_text]
  dsimp only
  cases size : s.size with
  | none =>
      obtain ⟨first, more, cut, whole⟩ := exists_wordsThenRest_join s.isWord s.words_ne_nil
      rw [size] at read
      rw [s.wordsThenRest_sizeless size, name, cut]
      dsimp only
      rw [if_pos s.isType_kind, contains_kind, whole]
      cases s.isCode with
      | false => rfl
      | true => exact congrArg (Except.map some) read
  | some n =>
      rw [size] at read
      rw [s.wordsThenRest_sized size]
      dsimp only
      rw [if_neg (by simp [s.isType_size size]), contains_kind, number_digits]
      cases s.isCode with
      | false => rfl
      | true => exact congrArg (Except.map some) read

end ListedSymbol

/-! ## Listings -/

namespace ListedLine

theorem inLine_text (line : ListedLine) : ∀ c ∈ line.text, endsLine c = false := by
  cases line with
  | blank blanks isBlank inLine => exact inLine
  | symbol s => exact s.inLine_text

theorem row_blanks {blanks : List Char} (blank : ∀ c ∈ blanks, isBlank c = true) :
    Listing.row blanks = .ok none := by
  have fields : wordsThenRest 3 (blanks.takeWhile (· != '\t')) = [] :=
    wordsThenRest_blanks 3 fun c member => blank c (List.takeWhile_subset _ member)
  rw [Listing.row, cutAtFirst]
  dsimp only
  rw [fields]
  rfl

theorem row_text (line : ListedLine) :
    Listing.row line.text = .ok (line.code?.map ListedSymbol.row) := by
  cases line with
  | blank blanks isBlank inLine => exact row_blanks isBlank
  | symbol s =>
      rw [text, s.row_text, code?]
      cases s.isCode <;> rfl

theorem rows_cons (line : ListedLine) (lines : List ListedLine) :
    rows (line :: lines) = [line.code?.map ListedSymbol.row].filterMap id ++ rows lines := by
  unfold rows
  cases code : line.code? <;> simp [code]

theorem exists_mapM_row (lines : List ListedLine) :
    ∃ found, (Text.lines (join ['\n'] (lines.map text))).mapM Listing.row = .ok found ∧
      found.filterMap id = rows lines := by
  induction lines with
  | nil => exact ⟨[], rfl, rfl⟩
  | cons line lines ih =>
      rw [rows_cons]
      cases lines with
      | nil =>
          have whole : join ['\n'] ([line].map text) = line.text := by simp [join]
          rw [whole, lines_last line.inLine_text]
          split
          · next empty =>
              have none := line.row_text
              rw [empty, row_blanks (by simp)] at none
              exact ⟨[], rfl, by rw [← Except.ok.inj none]; rfl⟩
          · refine ⟨[line.code?.map ListedSymbol.row], ?_, (List.append_nil _).symm⟩
            exact mapM_cons_eq_ok_iff.2 ⟨_, [], line.row_text, rfl, rfl⟩
      | cons next lines =>
          obtain ⟨found, read, kept⟩ := ih
          have whole : join ['\n'] ((line :: next :: lines).map text) =
              line.text ++ '\n' :: join ['\n'] ((next :: lines).map text) := by
            simp [join, List.intercalate_cons_cons]
          rw [whole, lines_cons line.inLine_text]
          refine ⟨line.code?.map ListedSymbol.row :: found, ?_, ?_⟩
          · exact mapM_cons_eq_ok_iff.2 ⟨_, found, line.row_text, read, rfl⟩
          · rw [← List.singleton_append, List.filterMap_append, kept]

theorem rows_listing (lines : List ListedLine) :
    Listing.rows (listing lines) = .ok (rows lines) := by
  obtain ⟨found, read, kept⟩ := exists_mapM_row lines
  rw [Listing.rows, listing, String.toList_ofList, read, ← kept]
  rfl

theorem start_nonneg {lines : List ListedLine} : ∀ row ∈ rows lines, 0 ≤ row.start := by
  intro row member
  obtain ⟨s, -, rfl⟩ := List.mem_map.1 member
  exact Int.natCast_nonneg s.address.value

/-- Reading a listing is the inverse of writing it: its symbols are those of the rows of its code
    symbols, whatever their names, sizes and places, and whatever blank lines are between them. The
    symbols are always found, and every address and size can be listed in any width. -/
theorem symbolsOfListing_listing (lines : List ListedLine) :
    symbolsOfListing (listing lines) = closeRanges (rows lines) ∧
      (∃ symbols, symbolsOfListing (listing lines) = .ok symbols) ∧
      ∀ width n, width ≤ (HexNumeral.ofNat width n).digits.length ∧
        (HexNumeral.ofNat width n).value = n := by
  have inverse : symbolsOfListing (listing lines) = closeRanges (rows lines) := by
    rw [symbolsOfListing, rows_listing]
    rfl
  refine ⟨inverse, ?_, fun width n => ⟨HexNumeral.le_length_ofNat width n, by simp⟩⟩
  obtain ⟨symbols, made, -⟩ := closeRanges_ok start_nonneg
  exact ⟨symbols, inverse.trans made⟩

/-- A name with spaces in it, in a file whose path has a colon. -/
def spacedSymbol : ListedSymbol where
  address := .ofNat 8 0x401000
  size := some (.ofNat 2 0)
  kind := 'W'
  words := ["operator".toList, "new(unsigned".toList, "long)".toList]
  place := some ⟨['C', ':', '/', 'a', '.', 'c'], 12, by constructor <;> simp [isBlank, endsLine]⟩
  two_le_size := by
    rintro _ ⟨⟩
    exact HexNumeral.le_length_ofNat 2 0
  isAlpha := by decide
  words_ne_nil := by decide
  isWord := by decide

example : listing [.symbol spacedSymbol, .blank [] nofun nofun] =
    "00401000 00 W operator new(unsigned long)\tC:/a.c:12\n" := by
  decide

end ListedLine

end CallProfile
