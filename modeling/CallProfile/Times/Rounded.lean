import CallProfile.Decimal.Binary64
import CallProfile.Fault
import CallProfile.Times

/-! # Times as doubles

Every step is rounded to the nearest double. A whole number beyond the largest double has
none: a time that depends on one is not known.
-/

namespace CallProfile

/-- A time as a double, when every whole number on the way to it has one. -/
inductive Rounded where
  | near (x : Float)
  | tooLarge
  deriving Repr

namespace Rounded

/-- A double that may be missing. -/
def ofOption : Option Float → Rounded
  | some x => .near x
  | none => .tooLarge

def combine (f : Float → Float → Float) : Rounded → Rounded → Rounded
  | .near x, .near y => .near (f x y)
  | _, _ => .tooLarge

def ofInt (n : Int) : Rounded :=
  ofOption (Decimal.nearestInt? n)

/-- How two doubles compare; one that is no number compares with none. -/
def order? : Rounded → Rounded → Option Ordering
  | .near x, .near y =>
      if x < y then some .lt else if x == y then some .eq else if y < x then some .gt else none
  | _, _ => none

/-- How a double compares with a whole number, exactly. -/
def orderInt? : Rounded → Int → Option Ordering
  | .near x, n =>
      match Decimal.parts x with
      | .finite number => some (number.compareInt n)
      | .infinite negative => some (if negative then .lt else .gt)
      | .nan => none
  | .tooLarge, _ => none

def value : Rounded → Except Fault Float
  | .near x => .ok x
  | .tooLarge => .error .overflow

instance : Times Rounded where
  ofInt := ofInt
  add := combine (· + ·)
  part x calls all := combine (· / ·) (combine (· * ·) x (ofInt calls)) (ofInt all)
  quotient n d := ofOption (Decimal.nearestQuotient? n d)
  divideBy x d := combine (· / ·) x (ofInt d)
  percent x := combine (· * ·) x (.near 100)
  order? := order?
  orderInt? := orderInt?
  fits
    | .near _ => true
    | .tooLarge => false

end Rounded

end CallProfile
