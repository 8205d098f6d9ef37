import CallProfile.Fault
import CallProfile.Whole

/-! # Moments

A run without a name of its own is named for the moment at which it starts.
-/

namespace CallProfile

open scoped Whole

/-- A moment to the second. -/
structure Moment where
  year : Nat
  month : Nat
  day : Nat
  hour : Nat
  minute : Nat
  second : Nat
  deriving Repr, DecidableEq

namespace Moment

def isLeap (year : Int) : Bool :=
  year % 4 = 0 && (year % 100 ≠ 0 || year % 400 = 0)

def daysOf (year month : Int) : Int :=
  if month = 2 then (if isLeap year then 29 else 28)
  else if month = 4 || month = 6 || month = 9 || month = 11 then 30
  else 31

/-- The ranges of the parts of a moment, in their order. -/
def ranges (year month : Int) : List (MomentPart × Int × Int) :=
  [(.year, 1, 9999), (.month, 1, 12), (.day, 1, daysOf year month), (.hour, 0, 23),
    (.minute, 0, 59), (.second, 0, 59), (.microsecond, 0, 999999)]

def check : List (MomentPart × Int × Int) → List Int → Except Fault Unit
  | (part, low, high) :: ranges, n :: parts =>
      if n < low || high < n then .error (.moment part n) else check ranges parts
  | _, _ => .ok ()

/-- The moment with the given year, month and day, and as much of the time as is given. -/
def ofParts (parts : List Int) : Except Fault Moment := do
  if parts.length < 3 || 7 < parts.length then throw .wrongType
  if parts.any fun n => n < -(2 ^ (31 : Nat)) || 2 ^ (31 : Nat) ≤ n then throw .overflow
  let part (i : Nat) : Int := parts[i]?.getD 0
  check (ranges (part 0) (part 1)) parts
  return { year := (part 0).toNat, month := (part 1).toNat, day := (part 2).toNat
           hour := (part 3).toNat, minute := (part 4).toNat, second := (part 5).toNat }

/-- The moment so many seconds after the start of 1970. Years are counted from March, so
    that a leap day is the last one, in cycles of 400 years. -/
def ofSeconds (seconds : Nat) : Moment :=
  let days := seconds / 86400 + 719468
  let day := days % 146097
  let year := (day - day / 1460 + day / 36524 - day / 146096) / 365
  let dayOfYear := day - (365 * year + year / 4 - year / 100)
  let month := (5 * dayOfYear + 2) / 153
  let late := 10 ≤ month
  { year := year + days / 146097 * 400 + (if late then 1 else 0)
    month := if late then month - 9 else month + 3
    day := dayOfYear - (153 * month + 2) / 5 + 1
    hour := seconds % 86400 / 3600
    minute := seconds % 3600 / 60
    second := seconds % 60 }

def twoDigits (n : Nat) : String :=
  if n < 10 then s!"0{n}" else toString n

/-- The name of a run that starts at a moment. -/
def runName (m : Moment) : String :=
  s!"{m.year}{twoDigits m.month}{twoDigits m.day}-" ++
    s!"{twoDigits m.hour}{twoDigits m.minute}{twoDigits m.second}"

end Moment

end CallProfile
