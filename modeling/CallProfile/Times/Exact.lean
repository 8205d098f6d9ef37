import CallProfile.Times

/-! # Times as exact fractions

With exact fractions no time is lost or made up by rounding, so that the laws of sharing
out hold as equations.
-/

namespace CallProfile

instance : Times Rat where
  ofInt n := n
  add := (· + ·)
  part x calls all := x * calls / all
  quotient n d := n / d
  divideBy x d := x / d
  percent x := x * 100
  order? x y := some (if x < y then .lt else if x = y then .eq else .gt)
  orderInt? x n := some (if x < n then .lt else if x = n then .eq else .gt)
  fits _ := true

end CallProfile
