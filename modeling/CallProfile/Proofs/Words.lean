import CallProfile.Proofs.Decimals
import CallProfile.Text.HexNumeral
import Mathlib.Data.List.TakeWhile

/-! # Cutting text

Lines, words and fields are found where they were put: each function that cuts a text gives back the
pieces that the text was put together from.
-/

namespace CallProfile.Text

variable {s word rest line : List Char} {c mark : Char}

/-! ## Blanks -/

theorem isBlank_of_endsLine (ends : endsLine c = true) : isBlank c = true := by
  simp only [endsLine, Bool.or_eq_true, Bool.and_eq_true, decide_eq_true_eq, beq_iff_eq] at ends
  simp only [isBlank, Bool.or_eq_true, Bool.and_eq_true, decide_eq_true_eq, beq_iff_eq]
  omega

theorem endsLine_of_not_blank (ink : isBlank c = false) : endsLine c = false := by
  rw [← Bool.not_eq_true] at ink ⊢
  exact fun ends => ink (isBlank_of_endsLine ends)

theorem isBlank_of_range (least : 33 ≤ c.toNat) (most : c.toNat ≤ 126) : isBlank c = false := by
  simp only [isBlank, Bool.or_eq_false_iff, Bool.and_eq_false_iff, decide_eq_false_iff_not,
    beq_eq_false_iff_ne]
  omega

theorem dropWhile_of_head {p : Char → Bool} (head : ∀ c ∈ s.head?, p c = false) :
    s.dropWhile p = s := by
  cases s with
  | nil => rfl
  | cons c s => simp [head c rfl]

/-- Nothing is trimmed from a text without blanks at its ends. -/
theorem trim_of_ends (head : ∀ c ∈ s.head?, isBlank c = false)
    (last : ∀ c ∈ s.getLast?, isBlank c = false) : trim s = s := by
  have back : ∀ c ∈ s.reverse.head?, isBlank c = false := by
    simpa only [List.head?_reverse] using last
  rw [trim, trimWhere, dropWhile_of_head head, dropWhile_of_head back, List.reverse_reverse]

theorem dropWhile_append_of_head {p : Char → Bool} {front : List Char}
    (all : ∀ c ∈ front, p c = true) (head : ∀ c ∈ s.head?, p c = false) :
    (front ++ s).dropWhile p = s := by
  rw [List.dropWhile_append_of_pos all, dropWhile_of_head head]

theorem trim_blanks {front back : List Char} (before : ∀ c ∈ front, isBlank c = true)
    (ink : ∀ c ∈ s, isBlank c = false) (after : ∀ c ∈ back, isBlank c = true) :
    trim (front ++ s ++ back) = s := by
  by_cases empty : s = []
  · subst empty
    have blanks : ∀ c ∈ front ++ [] ++ back, isBlank c = true := by
      rw [List.append_nil]
      exact fun c member => (List.mem_append.1 member).elim (before c) (after c)
    rw [trim, trimWhere, List.dropWhile_eq_nil_iff.2 blanks]
    rfl
  · obtain ⟨c, rest, rfl⟩ := List.exists_cons_of_ne_nil empty
    have front_trimmed : (front ++ (c :: rest) ++ back).dropWhile isBlank = c :: rest ++ back := by
      rw [List.append_assoc]
      refine dropWhile_append_of_head before fun d first => ?_
      rw [← Option.some.inj first]
      exact ink c List.mem_cons_self
    rw [trim, trimWhere, front_trimmed, List.reverse_append,
      dropWhile_append_of_head (by simpa using after), List.reverse_reverse]
    exact fun d last => ink d (List.mem_reverse.1 (List.mem_of_mem_head? last))

theorem mem_dropWhile {p : Char → Bool} (member : c ∈ s) (stays : p c = false) :
    c ∈ s.dropWhile p := by
  induction s with
  | nil => cases member
  | cons d s ih =>
      rw [List.dropWhile_cons]
      split
      · next dropped =>
          rcases List.mem_cons.1 member with rfl | later
          · rw [stays] at dropped
            cases dropped
          · exact ih later
      · exact member

theorem mem_trim (member : c ∈ s) (ink : isBlank c = false) : c ∈ trim s :=
  List.mem_reverse.2 (mem_dropWhile (List.mem_reverse.2 (mem_dropWhile member ink)) ink)

/-! ## Words -/

theorem wordsThenRest_blank (count : Nat) (blank : isBlank c = true) (s : List Char) :
    wordsThenRest count (c :: s) = wordsThenRest count s := by
  cases count <;> simp only [wordsThenRest, List.dropWhile_cons_of_pos blank]

theorem wordsThenRest_blanks (count : Nat) (blanks : ∀ c ∈ s, isBlank c = true) :
    wordsThenRest count s = [] := by
  induction s with
  | nil => cases count <;> rfl
  | cons c s ih =>
      rw [wordsThenRest_blank count (blanks c List.mem_cons_self)]
      exact ih fun d member => blanks d (List.mem_cons_of_mem c member)

/-- What is left after the words is kept as it is. -/
theorem wordsThenRest_zero (nonempty : s ≠ []) (head : ∀ c ∈ s.head?, isBlank c = false) :
    wordsThenRest 0 s = [s] := by
  rw [wordsThenRest, dropWhile_of_head head]
  cases s with
  | nil => exact absurd rfl nonempty
  | cons c s => rfl

/-- A word up to a blank is the first one. -/
theorem wordsThenRest_word (count : Nat) (nonempty : word ≠ [])
    (ink : ∀ c ∈ word, isBlank c = false) (blank : ∀ c ∈ rest.head?, isBlank c = true) :
    wordsThenRest (count + 1) (word ++ rest) = word :: wordsThenRest count rest := by
  have inked : ∀ c ∈ word, (!isBlank c) = true := fun c member => by rw [ink c member]; rfl
  have ends : ∀ c ∈ rest.head?, (!isBlank c) = false := fun c first => by rw [blank c first]; rfl
  have stops : rest.takeWhile (!isBlank ·) = [] := by
    cases rest with
    | nil => rfl
    | cons c rest => exact List.takeWhile_cons_of_neg (by simp [blank c rfl])
  obtain ⟨c, word, rfl⟩ := List.exists_cons_of_ne_nil nonempty
  have front : (c :: word ++ rest).dropWhile isBlank = c :: (word ++ rest) :=
    dropWhile_of_head (s := c :: word ++ rest) (by simpa using ink c List.mem_cons_self)
  have taken : (c :: (word ++ rest)).takeWhile (!isBlank ·) = c :: word := by
    rw [← List.cons_append, List.takeWhile_append_of_pos inked, stops, List.append_nil]
  have left : (c :: (word ++ rest)).dropWhile (!isBlank ·) = rest := by
    rw [← List.cons_append, List.dropWhile_append_of_pos inked, dropWhile_of_head ends]
  rw [wordsThenRest, front]
  dsimp only
  rw [taken, left]

/-! ## Fields -/

theorem cutAtFirst_append (absent : mark ∉ s) (rest : List Char) :
    cutAtFirst mark (s ++ mark :: rest) = (s, rest) := by
  have other : ∀ c ∈ s, (c != mark) = true := fun c member =>
    bne_iff_ne.2 fun same => absent (same ▸ member)
  rw [cutAtFirst, List.takeWhile_append_of_pos other, List.dropWhile_append_of_pos other]
  simp

theorem cutAtFirst_absent (absent : mark ∉ s) : cutAtFirst mark s = (s, []) := by
  have other : ∀ c ∈ s, (c != mark) = true := fun c member =>
    bne_iff_ne.2 fun same => absent (same ▸ member)
  have taken : (s ++ []).takeWhile (· != mark) = s ++ List.takeWhile (· != mark) [] :=
    List.takeWhile_append_of_pos other
  have left : (s ++ []).dropWhile (· != mark) = List.dropWhile (· != mark) [] :=
    List.dropWhile_append_of_pos other
  rw [List.append_nil] at taken left
  rw [cutAtFirst, taken, left]
  simp

theorem beforeLast_append (s : List Char) (absent : mark ∉ rest) :
    beforeLast mark (s ++ mark :: rest) = s := by
  have other : ∀ c ∈ rest.reverse, (c != mark) = true := fun c member =>
    bne_iff_ne.2 fun same => absent (same ▸ List.mem_reverse.1 member)
  have split : (s ++ mark :: rest).reverse = rest.reverse ++ mark :: s.reverse := by simp
  rw [beforeLast, if_pos (by simp), split, List.dropWhile_append_of_pos other]
  simp

/-! ## Lines -/

theorem lines_go (inLine : ∀ c ∈ line, endsLine c = false) (before rest : List Char) :
    lines.go before (line ++ rest) = lines.go (line.reverse ++ before) rest := by
  induction line generalizing before with
  | nil => rfl
  | cons c line ih =>
      have inside := inLine c List.mem_cons_self
      have plain : c ≠ '\r' := by
        rintro rfl
        cases inside
      have step : lines.go before (c :: (line ++ rest)) =
          lines.go (c :: before) (line ++ rest) := by
        rw [lines.go, if_neg (by simp [inside])]
        exact fun _ same => absurd same plain
      rw [List.cons_append, step, ih fun d member => inLine d (List.mem_cons_of_mem c member)]
      simp

theorem lines_cons (inLine : ∀ c ∈ line, endsLine c = false) (rest : List Char) :
    lines (line ++ '\n' :: rest) = line :: lines rest := by
  have ends : endsLine '\n' = true := rfl
  rw [lines, lines_go inLine, lines.go, if_pos ends, List.append_nil, List.reverse_reverse, lines]
  nofun

/-- The last line needs no end, and is none without characters. -/
theorem lines_last (inLine : ∀ c ∈ line, endsLine c = false) :
    lines line = if line = [] then [] else [line] := by
  have whole := lines_go inLine [] []
  rw [List.append_nil, List.append_nil] at whole
  rw [lines, whole]
  cases line with
  | nil => rfl
  | cons c line =>
      obtain ⟨d, back, reversed⟩ := List.exists_cons_of_ne_nil
        (List.reverse_ne_nil_iff.2 (List.cons_ne_nil c line))
      rw [if_neg (List.cons_ne_nil c line), reversed, lines.go, ← reversed, List.reverse_reverse]
      nofun

/-! ## Numerals in base sixteen -/

theorem hexDigit?_eq_some {value : Nat} (read : hexDigit? c = some value) :
    48 ≤ c.toNat ∧ c.toNat ≤ 102 ∧ value < 16 := by
  unfold hexDigit? at read
  simp only [Bool.and_eq_true, decide_eq_true_eq, Char.le_def, UInt32.le_iff_toNat_le] at read
  split at read
  · next decimal =>
      have range := Decimal.isDigit_iff.1 decimal
      have worth := Option.some.inj read
      omega
  split at read
  · next lower =>
      have least : 97 ≤ c.toNat := lower.1
      have most : c.toNat ≤ 102 := lower.2
      have worth := Option.some.inj read
      omega
  split at read
  · next upper =>
      have least : 65 ≤ c.toNat := upper.1
      have most : c.toNat ≤ 70 := upper.2
      have worth := Option.some.inj read
      omega
  · cases read

theorem IsHexDigit.range (digit : IsHexDigit c) : 48 ≤ c.toNat ∧ c.toNat ≤ 102 := by
  obtain ⟨value, read⟩ := Option.isSome_iff_exists.1 digit
  have range := hexDigit?_eq_some read
  exact ⟨range.1, range.2.1⟩

theorem IsHexDigit.isBlank (digit : IsHexDigit c) : isBlank c = false := by
  obtain ⟨least, most⟩ := digit.range
  exact isBlank_of_range (by omega) (by omega)

theorem digitBelow?_hexDigit (digit : IsHexDigit c) :
    digitBelow? 16 c = some ((hexDigit? c).getD 0) := by
  obtain ⟨value, read⟩ := Option.isSome_iff_exists.1 digit
  have below := (hexDigit?_eq_some read).2.2
  simp [digitBelow?, read, below]

theorem digitsFrom?_hexDigits (digits : ∀ c ∈ s, IsHexDigit c) (value : Nat) :
    digitsFrom? 16 value s = some (hexValueFrom value s) := by
  induction s generalizing value with
  | nil => rfl
  | cons c s ih =>
      have digit := digits c List.mem_cons_self
      rw [digitsFrom?, digitBelow?_hexDigit digit]
      · exact ih (fun d member => digits d (List.mem_cons_of_mem c member)) _
      · rintro _ _ rfl
        cases digit

theorem dropBaseMark_hexDigits (digits : ∀ c ∈ s, IsHexDigit c) : dropBaseMark 16 s = s := by
  unfold dropBaseMark
  split
  · next x rest =>
      have digit := digits x (by simp)
      rw [if_neg]
      simp only [decide_true, Bool.true_and, Bool.or_eq_true, decide_eq_true_eq]
      rintro (rfl | rfl) <;> cases digit
  · rfl

theorem digits?_hexNumeral (n : HexNumeral) : digits? 16 n.digits = some n.value := by
  obtain ⟨digits, nonempty, isDigit⟩ := n
  obtain ⟨c, rest, rfl⟩ := List.exists_cons_of_ne_nil nonempty
  rw [digits?, digitBelow?_hexDigit (isDigit c List.mem_cons_self)]
  have others := digitsFrom?_hexDigits fun d member => isDigit d (List.mem_cons_of_mem c member)
  exact (others _).trans (by simp [HexNumeral.value, hexValueFrom])

/-- A numeral of ASCII characters that has neither blanks nor a sign is read from its digits. -/
theorem numeral?_unsigned (base : Nat) (range : ∀ c ∈ s, 33 ≤ c.toNat ∧ c.toNat ≤ 126)
    (unsigned : ∀ c ∈ s.head?, c ≠ '-' ∧ c ≠ '+') :
    numeral? base s = (digits? base (dropBaseMark base s)).map fun n => (n : Int) := by
  have plain : s.map plainDigit = s := by
    refine (List.map_congr_left fun c member => ?_).trans (List.map_id s)
    have most := (range c member).2
    exact if_pos (by omega)
  have ink : ∀ c ∈ s, isNumeralBlank c = false := fun c member => by
    rw [isNumeralBlank, isBlank_of_range (range c member).1 (range c member).2, Bool.false_and]
  have trimmed : trimWhere isNumeralBlank s = s := by
    rw [trimWhere, dropWhile_of_head fun c first => ink c (List.mem_of_mem_head? first),
      dropWhile_of_head fun c first =>
        ink c (List.mem_reverse.1 (List.mem_of_mem_head? first)), List.reverse_reverse]
  rw [numeral?, plain, trimmed, signedDigits?]
  all_goals
    rintro _ rfl
    have first := unsigned _ rfl
    simp at first

theorem numeral?_hexNumeral (n : HexNumeral) : numeral? 16 n.digits = some (n.value : Int) := by
  rw [numeral?_unsigned 16, dropBaseMark_hexDigits n.isHexDigit, digits?_hexNumeral]
  · rfl
  · intro c member
    have range := (n.isHexDigit c member).range
    omega
  · intro c first
    have digit := n.isHexDigit c (List.mem_of_mem_head? first)
    constructor <;> rintro rfl <;> cases digit

end CallProfile.Text
