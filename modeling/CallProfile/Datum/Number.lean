import CallProfile.Decimal.Read
import CallProfile.Fault
import CallProfile.Text.Numeral

/-! # Data as numbers and keys

What number a value stands for where one is needed: truth values count as zero and one,
texts are read as numerals. Keys of mappings are compared by value, so that equal numbers
are one key, and truth values are the numbers that they count as.
-/

namespace CallProfile.Datum

/-- A text as a whole number. There is a limit to its digits. -/
def textToInt (s : String) : Except Fault Int :=
  match Text.numeral? 10 s.toList with
  | some n =>
      let digits := (s.toList.filter fun c => (Text.decimalDigit? c).isSome).length
      if digitLimit < digits then .error (.longNumeral digits) else .ok n
  | none => .error (.numeral 10 (Text.quoted s))

/-- A value as a whole number. A real number loses its fraction. -/
def toInt : Datum → Except Fault Int
  | .int n => .ok n
  | .bool b => .ok (if b then 1 else 0)
  | .real x =>
      match Decimal.parts x with
      | .finite number => .ok number.truncate
      | .infinite _ => .error .overflow
      | .nan => .error .notANumber
  | .text s => textToInt s
  | .bytes b =>
      match Text.numeral? 10 (b.map fun byte => Char.ofNat byte.toNat) with
      | some n => .ok n
      | none => .error (.numeral 10 (Text.quotedBytes b))
  | _ => .error .wrongType

/-- A value as running text, unless some number in it has too many digits. -/
def toText (d : Datum) : Except Fault String :=
  if d.isShort then .ok d.plain else .error .longNumber

/-- A whole number, or a truth value as one. -/
def int? : Datum → Option Int
  | .int n => some n
  | .bool b => some (if b then 1 else 0)
  | _ => none

/-- Whether a value equals a whole number. -/
def equalsInt (n : Int) : Datum → Bool
  | .int m => m = n
  | .bool b => n = (if b then 1 else 0)
  | .real x =>
      match Decimal.parts x with
      | .finite number => number.compareInt n == .eq
      | _ => false
  | _ => false

/-- Whether two keys of a mapping are one. -/
def sameKey : Datum → Datum → Bool
  | .null, .null => true
  | .text a, .text b => a = b
  | .bytes a, .bytes b => a = b
  | .int n, d => d.equalsInt n
  | d, .int n => d.equalsInt n
  | .bool a, .bool b => a = b
  | .real a, .real b => a == b
  | .other a _ _ _ _, .other b _ _ _ _ => a = b
  | _, _ => false

/-- Set the value under a key, which keeps its place when it is present. -/
def putKey (key value : Datum) : List (Datum × Datum) → List (Datum × Datum)
  | [] => [(key, value)]
  | (k, old) :: entries =>
      if sameKey k key then (k, value) :: entries else (k, old) :: putKey key value entries

def isKey : Datum → Bool
  | .list _ => false
  | .map _ => false
  | .other _ _ _ isKey _ => isKey
  | _ => true

end CallProfile.Datum
