import CallProfile.Decimal.Binary64
import CallProfile.Text.Numeral

/-! # Reading decimals

A decimal text stands for the double nearest to it; one beyond the largest double
stands for infinity.
-/

namespace CallProfile.Decimal

open scoped Whole

/-- The double nearest to `digits · 10 ^ exponent`. Powers of ten far outside the range
    of doubles are not computed. -/
def ofScientific (negative : Bool) (digits : Nat) (exponent : Int) : Float :=
  if digits = 0 then ofBits negative 0
  else
    let top := exponent + (Nat.log2 digits : Int) / 3 + 1
    if 1000 < exponent then infinity negative
    else if top < -1000 then ofBits negative 0
    else
      match nearestBits? (digits * 10 ^ exponent.toNat) (10 ^ (-exponent).toNat) with
      | some bits => ofBits negative bits
      | none => infinity negative

/-- The parts of an unsigned decimal: digits before the point, digits after it, and the
    exponent. -/
structure Spelling where
  whole : List Char
  fraction : List Char
  exponent : Int
  deriving Repr, DecidableEq

def digitsValue (digits : List Char) : Nat :=
  digits.foldl (fun n c => 10 * n + (c.toNat - 48)) 0

def Spelling.value (negative : Bool) (s : Spelling) : Float :=
  ofScientific negative (digitsValue (s.whole ++ s.fraction)) (s.exponent - s.fraction.length)

/-- Read the digits of an exponent with an optional sign, to the end of the text. -/
def exponentDigits? (s : List Char) : Option Int :=
  let (negative, digits) :=
    match s with
    | '-' :: rest => (true, rest)
    | '+' :: rest => (false, rest)
    | rest => (false, rest)
  if digits.isEmpty || !digits.all Char.isDigit then none
  else some (if negative then -(digitsValue digits : Int) else digitsValue digits)

/-- Read an unsigned decimal: digits with an optional point among or around them, then an
    optional exponent. -/
def spelling? (s : List Char) : Option Spelling := do
  let whole := s.takeWhile Char.isDigit
  let rest := s.dropWhile Char.isDigit
  let (fraction, rest) :=
    match rest with
    | '.' :: rest => (rest.takeWhile Char.isDigit, rest.dropWhile Char.isDigit)
    | rest => ([], rest)
  if whole.isEmpty && fraction.isEmpty then none
  match rest with
  | [] => return ⟨whole, fraction, 0⟩
  | e :: rest =>
      if e = 'e' || e = 'E' then return ⟨whole, fraction, ← exponentDigits? rest⟩
      else none

/-- Drop underscores that stand between two digits; any other underscore refuses the text. -/
def dropUnderscores? : (previous : Char) → List Char → Option (List Char)
  | _, [] => some []
  | previous, '_' :: c :: rest =>
      if previous.isDigit && c.isDigit then (dropUnderscores? c rest).map (c :: ·) else none
  | _, ['_'] => none
  | _, c :: rest => (dropUnderscores? c rest).map (c :: ·)

/-- The words for numbers without digits. -/
def namedNumber? (negative : Bool) (s : List Char) : Option Float :=
  let word := String.ofList (s.map Char.toLower)
  if word = "nan" then some notANumber
  else if word = "inf" || word = "infinity" then some (infinity negative)
  else none

/-- Read a decimal with optional sign, point, exponent, blanks around it and single
    underscores between digits, or the words for infinity and for no number. -/
def read? (s : List Char) : Option Float := do
  let plain := Text.trimWhere Text.isNumeralBlank (s.map Text.plainDigit)
  let body ← dropUnderscores? ' ' plain
  let (negative, body) :=
    match body with
    | '-' :: rest => (true, rest)
    | '+' :: rest => (false, rest)
    | rest => (false, rest)
  match namedNumber? negative body with
  | some x => return x
  | none => return (← spelling? body).value negative

end CallProfile.Decimal
