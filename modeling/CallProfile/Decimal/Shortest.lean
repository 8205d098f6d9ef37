import CallProfile.Decimal.Binary64

/-! # The shortest decimal that reads back

Every finite double is shown with the fewest digits that still round to it and, among
those decimals, with the one nearest to it. The reals that round to a double form an
interval; its ends belong to it when the mantissa is even.
-/

namespace CallProfile.Decimal

open scoped Whole

/-- A decimal `digits · 10 ^ exponent`. -/
structure Scientific where
  digits : Nat
  exponent : Int
  deriving Repr, DecidableEq

/-- The number of decimal digits of a number; zero has one. -/
def digitCount (n : Nat) : Nat :=
  (Nat.toDigits 10 n).length

/-- The greatest power of ten that is not above `num / den`, for positive numbers. -/
def decimalExponent (num den : Nat) : Int :=
  if den ≤ num then (digitCount (num / den) : Int) - 1
  else -(digitCount ((den + num - 1) / num - 1) : Int)

/-- The interval of reals that round to a double, as numerators over one denominator:
    lower end, value, upper end. -/
structure RoundingInterval where
  lower : Nat
  value : Nat
  upper : Nat
  den : Nat
  closed : Bool

/-- The interval of a positive finite double. Below a power of two the doubles lie twice
    as close, so the lower end is half as far away. -/
def Binary64.interval (x : Binary64) : RoundingInterval :=
  let below := if x.mantissa = 2 ^ (52 : Nat) && x.exponent != -1074 then 1 else 2
  let up := 2 ^ x.exponent.toNat
  { lower := (4 * x.mantissa - below) * up
    value := 4 * x.mantissa * up
    upper := (4 * x.mantissa + 2) * up
    den := 4 * 2 ^ (-x.exponent).toNat
    closed := x.mantissa % 2 = 0 }

/-- Whether `digits · 10 ^ exponent` lies in the interval. -/
def RoundingInterval.contains (i : RoundingInterval) (s : Scientific) : Bool :=
  let mark := s.digits * 10 ^ s.exponent.toNat * i.den
  let unit := 10 ^ (-s.exponent).toNat
  if i.closed then i.lower * unit ≤ mark && mark ≤ i.upper * unit
  else i.lower * unit < mark && mark < i.upper * unit

/-- The point of the grid `10 ^ exponent` nearest to the value among those in the
    interval, a tie going to the even digits; `none` when no point lies in it. -/
def RoundingInterval.nearestOn (i : RoundingInterval) (exponent : Int) : Option Scientific :=
  let num := i.value * 10 ^ (-exponent).toNat
  let den := i.den * 10 ^ exponent.toNat
  let low : Scientific := ⟨num / den, exponent⟩
  let high : Scientific := ⟨num / den + 1, exponent⟩
  match i.contains low, i.contains high with
  | true, true => some ⟨roundDiv num den, exponent⟩
  | true, false => some low
  | false, true => some high
  | false, false => none

/-- Search the grids from the coarsest: `count` more of them, the next being `exponent`. -/
def RoundingInterval.search (i : RoundingInterval) : (count : Nat) → (exponent : Int) → Scientific
  | 0, exponent => ⟨i.value * 10 ^ (-exponent).toNat / (i.den * 10 ^ exponent.toNat), exponent⟩
  | count + 1, exponent =>
      match i.nearestOn exponent with
      | some s => s
      | none => i.search count (exponent - 1)

/-- Take zeros off the end of the digits. -/
def stripZeros : (fuel : Nat) → Scientific → Scientific
  | 0, s => s
  | fuel + 1, s =>
      if s.digits % 10 = 0 && s.digits != 0 then
        stripZeros fuel ⟨s.digits / 10, s.exponent + 1⟩
      else s

/-- The shortest decimal of a finite double without its sign. Seventeen digits tell all
    doubles apart, so the search ends there. -/
def shortest (x : Binary64) : Scientific :=
  if x.mantissa = 0 then ⟨0, 0⟩
  else
    let interval := x.interval
    stripZeros 400 (interval.search 17 (decimalExponent interval.value interval.den))

end CallProfile.Decimal
