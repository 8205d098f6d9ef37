import CallProfile.Text.Blank
import CallProfile.Text.Digit
import CallProfile.Text.Hex

/-! # Numerals

Whole numbers written in text: an optional sign, digits of any script, and single
underscores between digits. In base sixteen `0x` may stand before the digits and
one underscore after it.
-/

namespace CallProfile.Text

/-- The blanks that may surround a numeral: all but the information separators. -/
def isNumeralBlank (c : Char) : Bool :=
  isBlank c && !(28 ≤ c.toNat && c.toNat ≤ 31)

/-- Write a decimal digit of any script as the ASCII digit of its value, and a
    blank beyond ASCII as a space. -/
def plainDigit (c : Char) : Char :=
  if c.toNat < 0x80 then c
  else if isBlank c then ' '
  else match decimalDigit? c with
    | some value => Char.ofNat (48 + value)
    | none => c

/-- The value of an ASCII digit below `base`. -/
def digitBelow? (base : Nat) (c : Char) : Option Nat :=
  (hexDigit? c).filter (· < base)

/-- Read the digits that follow one already read, whose value so far is `value`. -/
def digitsFrom? (base : Nat) : (value : Nat) → List Char → Option Nat
  | value, [] => some value
  | value, '_' :: c :: rest => do digitsFrom? base (value * base + (← digitBelow? base c)) rest
  | value, c :: rest => do digitsFrom? base (value * base + (← digitBelow? base c)) rest

/-- Read digits with single underscores between them; at least one digit. -/
def digits? (base : Nat) : List Char → Option Nat
  | [] => none
  | c :: rest => do digitsFrom? base (← digitBelow? base c) rest

/-- Drop `0x` or `0X` and one underscore after it, where the base is sixteen. -/
def dropBaseMark (base : Nat) : List Char → List Char
  | '0' :: x :: rest =>
      if base = 16 && (x = 'x' || x = 'X') then
        match rest with
        | '_' :: digits => digits
        | digits => digits
      else '0' :: x :: rest
  | s => s

/-- Read a numeral without the blanks around it. -/
def signedDigits? (base : Nat) : List Char → Option Int
  | '-' :: s => (digits? base (dropBaseMark base s)).map fun n => -(n : Int)
  | '+' :: s => (digits? base (dropBaseMark base s)).map fun n => (n : Int)
  | s => (digits? base (dropBaseMark base s)).map fun n => (n : Int)

/-- Read a numeral in `base`. -/
def numeral? (base : Nat) (s : List Char) : Option Int :=
  signedDigits? base (trimWhere isNumeralBlank (s.map plainDigit))

end CallProfile.Text
