/-! # Times

Times are counted in samples. A whole number of samples is shared out among callers, so
the shares need numbers with fractions. The analysis does not fix which: it is written
over the few operations it needs, and exact fractions and doubles both have them.
-/

namespace CallProfile

/-- Numbers in which times can be shared out. -/
class Times (α : Type) where
  ofInt : Int → α
  add : α → α → α
  /-- The part of a time that goes to some of all the calls. There is a call. -/
  part : α → Nat → Nat → α
  /-- The quotient of two whole numbers, the second one not zero. -/
  quotient : Int → Int → α
  /-- A time divided by a whole number that is not zero. -/
  divideBy : α → Int → α
  /-- A share of one as a percentage. -/
  percent : α → α
  /-- How two times compare, if they do. -/
  order? : α → α → Option Ordering
  /-- How a time compares with a whole number, if it does. -/
  orderInt? : α → Int → Option Ordering
  /-- Whether every number on the way to a time could be represented. -/
  fits : α → Bool

/-- A time that may still be a whole number of samples. -/
inductive Amount (α : Type) where
  | whole (n : Int)
  | time (x : α)
  deriving Repr, DecidableEq

namespace Amount

variable {α : Type} [Times α]

/-- An amount as a time. -/
def toTime : Amount α → α
  | .whole n => Times.ofInt n
  | .time x => x

/-- Add a whole number of samples. -/
def addTo (n : Int) : Amount α → Amount α
  | .whole m => .whole (n + m)
  | .time x => .time (Times.add (Times.ofInt n) x)

/-- How two amounts compare, if they do. -/
def order? : Amount α → Amount α → Option Ordering
  | .whole n, .whole m => some (compare n m)
  | .whole n, .time y => (Times.orderInt? y n).map Ordering.swap
  | .time x, .whole m => Times.orderInt? x m
  | .time x, .time y => Times.order? x y

/-- Whether every number on the way to an amount could be represented. -/
def fits : Amount α → Bool
  | .whole _ => true
  | .time x => Times.fits x

/-- An amount divided by a whole number; zero when that is zero. -/
def divideBy (a : Amount α) (d : Int) : α :=
  if d = 0 then Times.ofInt 0
  else
    match a with
    | .whole n => Times.quotient n d
    | .time x => Times.divideBy x d

end Amount

namespace Times

variable {α : Type} [Times α]

/-- The sum of times, from the first to the last. -/
def sum (xs : List α) : α :=
  xs.foldl add (ofInt 0)

/-- What percentage a whole number is of another; zero of zero. -/
def percentage (n total : Int) : α :=
  if total = 0 then ofInt 0 else percent (quotient n total)

end Times

end CallProfile
