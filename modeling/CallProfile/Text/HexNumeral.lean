import CallProfile.Text.Hex

/-! # Numerals in base sixteen

A number can be written in base sixteen in many ways: its digits are of either case, and any zeros
can stand in front of them.
-/

namespace CallProfile.Text

/-- Whether a character is a digit in base sixteen, of either case. -/
def IsHexDigit (c : Char) : Prop :=
  (hexDigit? c).isSome = true

instance (c : Char) : Decidable (IsHexDigit c) :=
  inferInstanceAs (Decidable (_ = true))

/-- A number as it is written in base sixteen. -/
structure HexNumeral where
  digits : List Char
  digits_ne_nil : digits ≠ []
  isHexDigit : ∀ c ∈ digits, IsHexDigit c
  deriving DecidableEq

/-- The number that digits stand for when they follow others, whose value is given. -/
def hexValueFrom (value : Nat) (digits : List Char) : Nat :=
  digits.foldl (fun value c => value * 16 + (hexDigit? c).getD 0) value

/-- The number that a numeral stands for. -/
def HexNumeral.value (n : HexNumeral) : Nat :=
  hexValueFrom 0 n.digits

theorem hexValueFrom_concat (value : Nat) (digits : List Char) (c : Char) :
    hexValueFrom value (digits ++ [c]) =
      hexValueFrom value digits * 16 + (hexDigit? c).getD 0 := by
  simp only [hexValueFrom, List.foldl_append, List.foldl_cons, List.foldl_nil]

theorem hexValueFrom_zeros (count : Nat) (digits : List Char) :
    hexValueFrom 0 (List.replicate count '0' ++ digits) = hexValueFrom 0 digits := by
  induction count with
  | zero => rfl
  | succ count ih => exact ih

/-- The shortest digits of a number stand for it. -/
theorem hexValueFrom_hexDigits (n : Nat) : hexValueFrom 0 (hexDigits n) = n := by
  unfold hexDigits
  induction n using Nat.strongRecOn with
  | ind n ih =>
      by_cases below : n < 16
      · rw [Nat.toDigits_of_lt_base below]
        simp [hexValueFrom, hexDigit?_digitChar n below]
      · rw [Nat.toDigits_of_base_le (by decide) (Nat.le_of_not_lt below), hexValueFrom_concat,
          ih (n / 16) (by omega), hexDigit?_digitChar (n % 16) (by omega), Option.getD_some]
        omega

theorem isHexDigit_of_mem_hexDigits {n : Nat} {c : Char} (member : c ∈ hexDigits n) :
    IsHexDigit c := by
  unfold hexDigits at member
  induction n using Nat.strongRecOn with
  | ind n ih =>
      by_cases below : n < 16
      · rw [Nat.toDigits_of_lt_base below, List.mem_singleton] at member
        simp [member, IsHexDigit, hexDigit?_digitChar n below]
      · rw [Nat.toDigits_of_base_le (by decide) (Nat.le_of_not_lt below), List.mem_append,
          List.mem_singleton] at member
        rcases member with front | last
        · exact ih (n / 16) (by omega) front
        · simp [last, IsHexDigit, hexDigit?_digitChar (n % 16) (by omega)]

namespace HexNumeral

/-- A number in lower case, with zeros in front up to `width` digits. -/
def ofNat (width n : Nat) : HexNumeral where
  digits := paddedHexDigits width n
  digits_ne_nil := by
    have some : hexDigits n ≠ [] := List.ne_nil_of_length_pos Nat.length_toDigits_pos
    simp [paddedHexDigits, some]
  isHexDigit c member := by
    rcases List.mem_append.1 member with zero | digit
    · rw [List.eq_of_mem_replicate zero]
      rfl
    · exact isHexDigit_of_mem_hexDigits digit

@[simp] theorem value_ofNat (width n : Nat) : (ofNat width n).value = n :=
  (hexValueFrom_zeros _ _).trans (hexValueFrom_hexDigits n)

theorem le_length_ofNat (width n : Nat) : width ≤ (ofNat width n).digits.length := by
  simp only [ofNat, paddedHexDigits, List.length_append, List.length_replicate]
  omega

end HexNumeral

end CallProfile.Text
