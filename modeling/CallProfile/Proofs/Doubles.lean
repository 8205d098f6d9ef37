import CallProfile.Times.Rounded
import Mathlib.Algebra.Order.Ring.Nat
import Mathlib.Tactic.Ring

/-! # Numbers that have doubles

A moderate number has a nearest double, and so has every quotient of one. Times that come from
moderate numbers can all be represented.
-/

namespace CallProfile

open scoped Whole

/-- The most bits of a moderate number. The largest double has some more. -/
def moderateBits : Nat := 1000

/-- Whether a whole number is far from the largest double. -/
def Moderate (n : Int) : Prop :=
  n.natAbs < 2 ^ moderateBits

namespace Decimal

variable {num den : Nat} {e : Int}

/-- In its unit a quotient is not much longer than a mantissa. -/
theorem scaled_lt (divides : den ≠ 0)
    (large : (Nat.log2 num : Int) - Nat.log2 den - 53 ≤ e) :
    (scaled num den e).1 < (scaled num den e).2 * 2 ^ (54 : Nat) := by
  have above : num < 2 ^ (Nat.log2 num + 1) := Nat.lt_log2_self
  have below : 2 ^ Nat.log2 den ≤ den := Nat.log2_self_le divides
  rw [scaled]
  split
  · next up =>
      have places : Nat.log2 num + 1 ≤ Nat.log2 den + e.toNat + 54 := by omega
      calc num < 2 ^ (Nat.log2 num + 1) := above
        _ ≤ 2 ^ (Nat.log2 den + e.toNat + 54) := Nat.pow_le_pow_right (by omega) places
        _ = 2 ^ Nat.log2 den * 2 ^ e.toNat * 2 ^ (54 : Nat) := by rw [pow_add, pow_add]
        _ ≤ den * 2 ^ e.toNat * 2 ^ (54 : Nat) :=
            Nat.mul_le_mul_right _ (Nat.mul_le_mul_right _ below)
  · next down =>
      have places : Nat.log2 num + 1 + (-e).toNat ≤ Nat.log2 den + 54 := by omega
      calc num * 2 ^ (-e).toNat < 2 ^ (Nat.log2 num + 1) * 2 ^ (-e).toNat :=
            Nat.mul_lt_mul_of_pos_right above (Nat.two_pow_pos _)
        _ = 2 ^ (Nat.log2 num + 1 + (-e).toNat) := by rw [← pow_add]
        _ ≤ 2 ^ (Nat.log2 den + 54) := Nat.pow_le_pow_right (by omega) places
        _ = 2 ^ Nat.log2 den * 2 ^ (54 : Nat) := by rw [pow_add]
        _ ≤ den * 2 ^ (54 : Nat) := Nat.mul_le_mul_right _ below

theorem roundDiv_le (num den : Nat) : roundDiv num den ≤ num / den + 1 := by
  rw [roundDiv]
  split
  · exact Nat.le_succ _
  · exact le_refl _

theorem unitExponent_bounds (num den : Nat) :
    (Nat.log2 num : Int) - Nat.log2 den - 53 ≤ unitExponent num den ∧
      unitExponent num den ≤ max ((Nat.log2 num : Int) - 52) (-1074) := by
  rw [unitExponent]
  dsimp only
  split <;> omega

theorem nearestBits?_isSome (moderate : num < 2 ^ moderateBits) (divides : den ≠ 0) :
    (nearestBits? num den).isSome = true := by
  by_cases some : num = 0
  · rw [nearestBits?, if_pos some]
    rfl
  have short : Nat.log2 num < moderateBits := (Nat.log2_lt some).2 moderate
  rw [nearestBits?, if_neg some]
  extract_lets e
  obtain ⟨large, small⟩ : (Nat.log2 num : Int) - Nat.log2 den - 53 ≤ e ∧
      e ≤ max ((Nat.log2 num : Int) - 52) (-1074) := unitExponent_bounds num den
  clear_value e
  have quotient := Nat.div_lt_of_lt_mul (scaled_lt divides large)
  have rounded := roundDiv_le (scaled num den e).1 (scaled num den e).2
  generalize scaled num den e = unit at quotient rounded ⊢
  obtain ⟨n, d⟩ := unit
  dsimp only at quotient rounded ⊢
  rw [moderateBits] at short
  rw [if_pos (by omega), Option.isSome_some]

theorem nearestQuotient?_isSome {n d : Int} (moderate : Moderate n) (divides : d ≠ 0) :
    (nearestQuotient? n d).isSome = true := by
  rw [nearestQuotient?, Option.isSome_map]
  exact nearestBits?_isSome moderate (Int.natAbs_ne_zero.2 divides)

end Decimal

namespace Rounded

variable {x y : Rounded} {n d : Int}

/-- Whether every number on the way to a time could be represented. -/
def Fits (x : Rounded) : Prop :=
  Times.fits x = true

theorem fits_ofOption {o : Option Float} (some : o.isSome = true) : (ofOption o).Fits := by
  cases o with
  | none => cases some
  | some x => rfl

theorem fits_quotient (moderate : Moderate n) (divides : d ≠ 0) :
    (Times.quotient n d : Rounded).Fits :=
  fits_ofOption (Decimal.nearestQuotient?_isSome moderate divides)

theorem fits_ofInt (moderate : Moderate n) : (Times.ofInt n : Rounded).Fits :=
  fits_quotient moderate Int.one_ne_zero

theorem fits_combine {f : Float → Float → Float} (first : x.Fits) (second : y.Fits) :
    (combine f x y).Fits := by
  cases x with
  | tooLarge => cases first
  | near x =>
      cases y with
      | tooLarge => cases second
      | near y => rfl

theorem fits_zero : (Times.ofInt 0 : Rounded).Fits :=
  fits_ofInt (Nat.two_pow_pos _)

theorem fits_part {calls all : Nat} (fits : x.Fits) (moderate : Moderate calls)
    (moderate' : Moderate all) : (Times.part x calls all).Fits :=
  fits_combine (fits_combine fits (fits_ofInt moderate)) (fits_ofInt moderate')

end Rounded

namespace Amount

open Rounded

variable {a : Amount Rounded} {d : Int}

/-- Whether an amount is moderate or can be represented. -/
def Fits : Amount Rounded → Prop
  | .whole n => Moderate n
  | .time x => x.Fits

theorem Fits.fits (fits : a.Fits) : a.fits = true := by
  cases a with
  | whole n => rfl
  | time x => exact fits

theorem Fits.toTime (fits : a.Fits) : a.toTime.Fits := by
  cases a with
  | whole n => exact fits_ofInt fits
  | time x => exact fits

theorem Fits.divideBy (fits : a.Fits) (moderate : Moderate d) : (a.divideBy d).Fits := by
  rw [Amount.divideBy.eq_def]
  split
  · exact fits_zero
  · next divides =>
      cases a with
      | whole n => exact fits_quotient fits divides
      | time x => exact fits_combine fits (fits_ofInt moderate)

end Amount

end CallProfile
