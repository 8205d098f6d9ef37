/-! # Hexadecimal digits

Numbers and bytes written in base sixteen with the digits `0` to `9` and `a` to `f`.
-/

namespace CallProfile.Text

/-- The digits of a number, most significant first; zero has one digit. -/
def hexDigits (n : Nat) : List Char :=
  Nat.toDigits 16 n

/-- The digits of a number with zeros in front, up to `width` digits. -/
def paddedHexDigits (width n : Nat) : List Char :=
  let digits := hexDigits n
  List.replicate (width - digits.length) '0' ++ digits

/-- A whole number as hexadecimal digits, a minus sign before a negative one. -/
def hexText : Int → String
  | .ofNat n => String.ofList (hexDigits n)
  | .negSucc n => String.ofList ('-' :: hexDigits (n + 1))

/-- Bytes as two digits each. -/
def bytesHex (bytes : List UInt8) : String :=
  String.ofList (bytes.flatMap fun byte => paddedHexDigits 2 byte.toNat)

/-- The value of one hexadecimal digit, either case. -/
def hexDigit? (c : Char) : Option Nat :=
  if c.isDigit then some (c.toNat - 48)
  else if 'a' ≤ c && c ≤ 'f' then some (c.toNat - 87)
  else if 'A' ≤ c && c ≤ 'F' then some (c.toNat - 55)
  else none

theorem hexDigit?_digitChar : ∀ n < 16, hexDigit? n.digitChar = some n := by
  decide

/-- Read bytes written as two digits each. -/
def bytesOfHex? : List Char → Option (List UInt8)
  | [] => some []
  | [_] => none
  | high :: low :: rest => do
      let h ← hexDigit? high
      let l ← hexDigit? low
      return UInt8.ofNat (16 * h + l) :: (← bytesOfHex? rest)

end CallProfile.Text
