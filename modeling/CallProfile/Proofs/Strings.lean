import CallProfile.Json.Reader
import CallProfile.Json.Writer

/-! # Strings of a document

Every text is written as a string that reads back as the text, whatever stands behind it. Between
them lie code units: one for most characters, two halves for those beyond sixteen bits.
-/

namespace CallProfile

open scoped Whole

/-! ## Hexadecimal digits -/

namespace Text

theorem paddedHexDigits_of_lt {n : Nat} (below : n < 16) (width : Nat) :
    paddedHexDigits (width + 1) n = List.replicate width '0' ++ [n.digitChar] := by
  simp [paddedHexDigits, hexDigits, Nat.toDigits_of_lt_base below]

theorem paddedHexDigits_succ (width n : Nat) :
    paddedHexDigits (width + 2) n =
      paddedHexDigits (width + 1) (n / 16) ++ [(n % 16).digitChar] := by
  by_cases below : n < 16
  · have whole : n / 16 = 0 := Nat.div_eq_of_lt below
    rw [whole, paddedHexDigits_of_lt below, paddedHexDigits_of_lt (by decide),
      Nat.mod_eq_of_lt below]
    simp [List.replicate_succ', Nat.digitChar]
  · have more := Nat.toDigits_of_base_le (b := 16) (by decide) (Nat.le_of_not_lt below)
    simp only [paddedHexDigits, hexDigits, more, List.length_append, List.length_singleton,
      ← List.append_assoc]
    rw [show width + 2 - ((Nat.toDigits 16 (n / 16)).length + 1) =
      width + 1 - (Nat.toDigits 16 (n / 16)).length by omega]

end Text

namespace Json

theorem fourDigits?_padded {n : Nat} (below : n < 0x10000) :
    ∃ a b c d, Text.paddedHexDigits 4 n = [a, b, c, d] ∧ fourDigits? a b c d = some n := by
  have high : n / 16 / 16 / 16 < 16 := by omega
  have digits : Text.paddedHexDigits 4 n = [(n / 16 / 16 / 16).digitChar,
      (n / 16 / 16 % 16).digitChar, (n / 16 % 16).digitChar, (n % 16).digitChar] := by
    rw [Text.paddedHexDigits_succ, Text.paddedHexDigits_succ, Text.paddedHexDigits_succ,
      Text.paddedHexDigits_of_lt high]
    rfl
  refine ⟨_, _, _, _, digits, ?_⟩
  have digit (m : Nat) := Text.hexDigit?_digitChar (m % 16) (Nat.mod_lt m (by decide))
  simp only [fourDigits?, digit, Text.hexDigit?_digitChar _ high, bind, Option.bind, pure]
  congr 1
  omega

/-! ## Code units -/

theorem toNat_valid (c : Char) :
    c.toNat < 0xD800 ∨ 0xDFFF < c.toNat ∧ c.toNat < 0x110000 :=
  c.valid

/-- The code units of a character. -/
def unitsOf (c : Char) : List Nat :=
  if c.toNat < 0x10000 then [c.toNat]
  else [0xD800 + (c.toNat - 0x10000) / 0x400, 0xDC00 + (c.toNat - 0x10000) % 0x400]

theorem units_unitEscape {n : Nat} (below : n < 0x10000) {opening : Nat} {s rest : List Char}
    {points : List Nat} (more : s ≠ []) (read : units opening s = .ok (points, rest)) :
    units opening (unitEscape n ++ s) = .ok (n :: points, rest) := by
  obtain ⟨a, b, c, d, digits, value⟩ := fourDigits?_padded below
  obtain ⟨x, s, rfl⟩ := List.exists_cons_of_ne_nil more
  rw [unitEscape, digits]
  refine (units.eq_4 opening a b c d x s n value).trans ?_
  rw [read]
  rfl

theorem units_letter {letter c : Char} (value : letterEscape? letter = some c.toNat)
    (below : c.toNat < 0x10000) {opening : Nat} {s rest : List Char} {points : List Nat}
    (read : units opening s = .ok (points, rest)) :
    units opening ('\\' :: letter :: s) = .ok (unitsOf c ++ points, rest) := by
  have plain : letter ≠ 'u' := by
    rintro rfl
    cases value
  rw [unitsOf, if_pos below]
  simp [units, plain, value, read, bind, Except.bind, pure, Except.pure]

theorem units_plain {c : Char} (quote : c ≠ '\x22') (slash : c ≠ '\\') (visible : 0x20 ≤ c.toNat)
    {opening : Nat} {s rest : List Char} {points : List Nat}
    (read : units opening s = .ok (points, rest)) :
    units opening (c :: s) = .ok (c.toNat :: points, rest) := by
  rw [units]
  all_goals simp [quote, slash, Nat.not_lt.2 visible, read, bind, Except.bind, pure, Except.pure]

theorem units_escaped (c : Char) {opening : Nat} {s rest : List Char} {points : List Nat}
    (more : s ≠ []) (read : units opening s = .ok (points, rest)) :
    units opening (escaped c ++ s) = .ok (unitsOf c ++ points, rest) := by
  by_cases quote : c = '\x22'
  · subst quote
    exact units_letter rfl (by decide) read
  by_cases slash : c = '\\'
  · subst slash
    exact units_letter rfl (by decide) read
  rw [escaped, if_neg quote, if_neg slash]
  -- the letters of control characters
  iterate 5
    split
    · next same => subst same; exact units_letter rfl (by decide) read
  split
  · next shown =>
      simp only [Bool.and_eq_true, decide_eq_true_eq] at shown
      rw [unitsOf, if_pos (by omega)]
      exact units_plain quote slash shown.1 read
  rw [unitsOf]
  split
  · next below => exact units_unitEscape below more read
  · next beyond =>
      have most := toNat_valid c
      rw [List.append_assoc, List.cons_append, List.cons_append, List.nil_append]
      exact units_unitEscape (by omega) (List.cons_ne_nil _ _)
        (units_unitEscape (by omega) more read)

theorem units_text (opening : Nat) (s rest : List Char) :
    units opening (s.flatMap escaped ++ '\x22' :: rest) = .ok (s.flatMap unitsOf, rest) := by
  induction s with
  | nil => rfl
  | cons c s ih =>
      rw [List.flatMap_cons, List.flatMap_cons, List.append_assoc]
      exact units_escaped c (by simp) ih

/-! ## Characters of code units -/

theorem charsOfUnits?_cons {n : Nat} (high : isHighSurrogate n = false)
    (low : isLowSurrogate n = false) (points : List Nat) :
    charsOfUnits? (n :: points) = (charsOfUnits? points).map (Char.ofNat n :: ·) := by
  cases points <;> simp [charsOfUnits?, high, low]

theorem charsOfUnits?_pair {n m : Nat} (high : isHighSurrogate n = true)
    (low : isLowSurrogate m = true) (points : List Nat) :
    charsOfUnits? (n :: m :: points) = (charsOfUnits? points).map
      (Char.ofNat (0x10000 + (n - 0xD800) * 0x400 + (m - 0xDC00)) :: ·) := by
  simp [charsOfUnits?, high, low]

theorem charsOfUnits?_unitsOf (c : Char) (points : List Nat) :
    charsOfUnits? (unitsOf c ++ points) = (charsOfUnits? points).map (c :: ·) := by
  have valid := toNat_valid c
  rw [unitsOf]
  split
  · have high : isHighSurrogate c.toNat = false := by
      simp only [isHighSurrogate, Bool.and_eq_false_iff, decide_eq_false_iff_not]
      omega
    have low : isLowSurrogate c.toNat = false := by
      simp only [isLowSurrogate, Bool.and_eq_false_iff, decide_eq_false_iff_not]
      omega
    exact (charsOfUnits?_cons high low points).trans (by rw [Char.ofNat_toNat])
  · have high : isHighSurrogate (0xD800 + (c.toNat - 0x10000) / 0x400) = true := by
      simp only [isHighSurrogate, Bool.and_eq_true, decide_eq_true_eq]
      omega
    have low : isLowSurrogate (0xDC00 + (c.toNat - 0x10000) % 0x400) = true := by
      simp only [isLowSurrogate, Bool.and_eq_true, decide_eq_true_eq]
      omega
    have whole : 0x10000 + (0xD800 + (c.toNat - 0x10000) / 0x400 - 0xD800) * 0x400 +
        (0xDC00 + (c.toNat - 0x10000) % 0x400 - 0xDC00) = c.toNat := by
      omega
    refine (charsOfUnits?_pair high low points).trans ?_
    rw [whole, Char.ofNat_toNat]

theorem charsOfUnits?_text (s : List Char) : charsOfUnits? (s.flatMap unitsOf) = some s := by
  induction s with
  | nil => rfl
  | cons c s ih =>
      rw [List.flatMap_cons, charsOfUnits?_unitsOf, ih]
      rfl

theorem writeText_append (s : String) (rest : List Char) :
    (writeText s).toList ++ rest = '\x22' :: (s.toList.flatMap escaped ++ '\x22' :: rest) := by
  simp [writeText]

/-- A text that is written as a string is read back, whatever stands behind it. -/
theorem string_text (s : String) (rest : List Char) :
    string (s.toList.flatMap escaped ++ '\x22' :: rest) = .ok (s, rest) := by
  simp only [string, units_text, bind, Except.bind, pure, Except.pure, charsOfUnits?_text,
    String.ofList_toList]

end Json

end CallProfile
