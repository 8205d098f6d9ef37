import CallProfile.Decimal.Shortest

/-! # Decimal notation

How a number is written once its digits are known: with a fixed number of places, or
with the shortest digits, positionally or with an exponent.
-/

namespace CallProfile.Decimal

open scoped Whole

/-- The decisions of a notation with the shortest digits. -/
structure Style where
  /-- Numbers from `10 ^ leastPositional` on are written positionally. -/
  leastPositional : Int
  /-- Numbers from `10 ^ firstExponential` on are written with an exponent. -/
  firstExponential : Int
  /-- Whether a mantissa of one digit is written with `.0` before its exponent. -/
  pointBeforeExponent : Bool
  nan : String
  infinity : String

/-- The style of messages: positional from `0.0001` to below `10 ^ 16`. -/
def Style.plain : Style :=
  ⟨-4, 16, false, "nan", "inf"⟩

def Style.json : Style :=
  ⟨-4, 16, false, "NaN", "Infinity"⟩

/-- The style of YAML documents, where an exponent needs a point before it. -/
def Style.yaml : Style :=
  ⟨-4, 16, true, ".nan", ".inf"⟩

def digitsOf (n : Nat) : List Char :=
  Nat.toDigits 10 n

/-- Positional notation with at least one digit on either side of the point. -/
def positional (s : Scientific) : List Char :=
  let digits := digitsOf s.digits
  if 0 ≤ s.exponent then
    digits ++ List.replicate s.exponent.toNat '0' ++ ['.', '0']
  else
    let places := (-s.exponent).toNat
    let padded := List.replicate (places + 1 - digits.length) '0' ++ digits
    padded.take (padded.length - places) ++ '.' :: padded.drop (padded.length - places)

/-- Notation with an exponent of at least two digits. -/
def exponential (pointBeforeExponent : Bool) (s : Scientific) : List Char :=
  match digitsOf s.digits with
  | [] => []
  | first :: rest =>
      let exponent := s.exponent + rest.length
      let fraction :=
        match rest with
        | [] => if pointBeforeExponent then ['.', '0'] else []
        | rest => '.' :: rest
      let digits := digitsOf exponent.natAbs
      let mark := if exponent < 0 then '-' else '+'
      first :: fraction ++ 'e' :: mark :: List.replicate (2 - digits.length) '0' ++ digits

def signed (negative : Bool) (text : List Char) : List Char :=
  if negative then '-' :: text else text

/-- A double in a style. -/
def Style.write (style : Style) (x : Float) : String :=
  match parts x with
  | .nan => style.nan
  | .infinite negative => String.ofList (signed negative style.infinity.toList)
  | .finite number =>
      let s := shortest number
      let top := s.exponent + (digitCount s.digits : Int) - 1
      let isPositional :=
        s.digits = 0 || (style.leastPositional ≤ top && top < style.firstExponential)
      String.ofList <| signed number.negative <|
        if isPositional then positional s else exponential style.pointBeforeExponent s

/-- A double with `places` digits after the point, its exact value rounded to the nearest
    and a half to the even last digit. -/
def fixed (places : Nat) (x : Float) : String :=
  match parts x with
  | .nan => "nan"
  | .infinite negative => String.ofList (signed negative "inf".toList)
  | .finite number =>
      let num := number.mantissa * 2 ^ number.exponent.toNat * 10 ^ places
      let den := 2 ^ (-number.exponent).toNat
      let digits := digitsOf (roundDiv num den)
      let padded := List.replicate (places + 1 - digits.length) '0' ++ digits
      let whole := padded.take (padded.length - places)
      let fraction := padded.drop (padded.length - places)
      String.ofList (signed number.negative (whole ++ '.' :: fraction))

end CallProfile.Decimal
