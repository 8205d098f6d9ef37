import CallProfile.Whole

/-! # Doubles as exact numbers

A finite double is `mantissa · 2 ^ exponent` with a sign. This module takes doubles
apart and rounds exact quotients to the nearest double, a half to the even mantissa.
Everything is computed on natural numbers, so nothing depends on the machine.
-/

namespace CallProfile.Decimal

open scoped Whole

/-- A finite double taken apart. -/
structure Binary64 where
  negative : Bool
  mantissa : Nat
  exponent : Int
  deriving Repr, DecidableEq

/-- What a double stands for. -/
inductive Parts where
  | nan
  | infinite (negative : Bool)
  | finite (number : Binary64)
  deriving Repr, DecidableEq

/-- Take a double apart. A subnormal one has the least exponent and a short mantissa. -/
def parts (x : Float) : Parts :=
  let bits := x.toBits.toNat
  let negative : Bool := 2 ^ (63 : Nat) ≤ bits
  let exponent : Nat := bits / 2 ^ (52 : Nat) % 2 ^ (11 : Nat)
  let fraction := bits % 2 ^ (52 : Nat)
  if exponent = 2047 then
    if fraction = 0 then .infinite negative else .nan
  else if exponent = 0 then .finite ⟨negative, fraction, -1074⟩
  else .finite ⟨negative, fraction + 2 ^ (52 : Nat), (exponent : Int) - 1075⟩

/-- Round a quotient to the nearest whole number, a half to the even one. -/
def roundDiv (num den : Nat) : Nat :=
  let quotient := num / den
  let twice := 2 * (num % den)
  if twice < den || (twice = den && quotient % 2 = 0) then quotient else quotient + 1

/-- `num / den` in units of `2 ^ exponent`, as a fraction. -/
def scaled (num den : Nat) (exponent : Int) : Nat × Nat :=
  if 0 ≤ exponent then (num, den * 2 ^ exponent.toNat) else (num * 2 ^ (-exponent).toNat, den)

/-- The exponent at which the mantissa of `num / den` has 53 bits, and never less than
    that of the least double. -/
def unitExponent (num den : Nat) : Int :=
  let guess := (Nat.log2 num : Int) - Nat.log2 den - 52
  let (n, d) := scaled num den guess
  max (if n < d * 2 ^ (52 : Nat) then guess - 1 else guess) (-1074)

/-- The bits of the double nearest to `num / den` without sign, or `none` when it lies
    beyond the largest double. The bits of neighbouring doubles are neighbours, so a
    mantissa that rounds up to the next power of two needs no special care. -/
def nearestBits? (num den : Nat) : Option Nat :=
  if num = 0 then some 0
  else
    let exponent := unitExponent num den
    let (n, d) := scaled num den exponent
    let bits := (exponent + 1074).toNat * 2 ^ (52 : Nat) + roundDiv n d
    if bits < 2047 * 2 ^ (52 : Nat) then some bits else none

/-- The double with the given sign and the given other bits. -/
def ofBits (negative : Bool) (bits : Nat) : Float :=
  Float.ofBits (UInt64.ofNat (if negative then bits + 2 ^ (63 : Nat) else bits))

def infinity (negative : Bool) : Float :=
  ofBits negative (2047 * 2 ^ (52 : Nat))

/-- The quiet number that is no number. -/
def notANumber : Float :=
  ofBits false (2047 * 2 ^ (52 : Nat) + 2 ^ (51 : Nat))

/-- The double nearest to `num / den`, for `den ≠ 0`. Zero takes the sign of the divisor. -/
def nearestQuotient? (num den : Int) : Option Float :=
  (nearestBits? num.natAbs den.natAbs).map (ofBits ((num < 0) != (den < 0)))

def nearestInt? (n : Int) : Option Float :=
  nearestQuotient? n 1

/-- The whole number next to a finite double on the side of zero. -/
def Binary64.truncate (x : Binary64) : Int :=
  let magnitude : Nat :=
    if 0 ≤ x.exponent then x.mantissa * 2 ^ x.exponent.toNat
    else x.mantissa / 2 ^ (-x.exponent).toNat
  if x.negative then -(magnitude : Int) else magnitude

/-- How a finite double compares with a whole number, exactly. -/
def Binary64.compareInt (x : Binary64) (n : Int) : Ordering :=
  let signed : Int := if x.negative then -(x.mantissa : Int) else x.mantissa
  if 0 ≤ x.exponent then compare (signed * 2 ^ x.exponent.toNat) n
  else compare signed (n * 2 ^ (-x.exponent).toNat)

end CallProfile.Decimal
