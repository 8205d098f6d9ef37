import CallProfile.Text.Hex
import CallProfile.Text.Printable

/-! # Quoted text

Messages show names, bytes and other values between quotes, so that blanks and
control characters can be seen. The quote is the apostrophe, or the double quote
when the text holds an apostrophe and no double quote.
-/

namespace CallProfile.Text

def apostrophe : Char := '\x27'

def doubleQuote : Char := '\x22'

/-- The quote that surrounds a text. -/
def chooseQuote (hasApostrophe hasDoubleQuote : Bool) : Char :=
  if hasApostrophe && !hasDoubleQuote then doubleQuote else apostrophe

/-- The escape of a code point that is not shown as it stands: two, four or eight
    digits, the fewest that hold it. -/
def numberedEscape (n : Nat) : List Char :=
  if n < 0x100 then '\\' :: 'x' :: paddedHexDigits 2 n
  else if n < 0x10000 then '\\' :: 'u' :: paddedHexDigits 4 n
  else '\\' :: 'U' :: paddedHexDigits 8 n

/-- One character inside quotes. The quote itself and the backslash follow a
    backslash, tab and line ends have letters, and what cannot be shown is numbered. -/
def quotedChar (shown : Char → Bool) (quote c : Char) : List Char :=
  if c = quote || c = '\\' then ['\\', c]
  else if c = '\t' then ['\\', 't']
  else if c = '\n' then ['\\', 'n']
  else if c = '\r' then ['\\', 'r']
  else if shown c then [c]
  else numberedEscape c.toNat

/-- Characters between quotes, where `shown` tells which stand for themselves. -/
def quotedWith (shown : Char → Bool) (s : List Char) : List Char :=
  let quote := chooseQuote (s.contains apostrophe) (s.contains doubleQuote)
  quote :: s.flatMap (quotedChar shown quote) ++ [quote]

/-- A text between quotes, printable characters kept. -/
def quoted (s : String) : String :=
  String.ofList (quotedWith isPrintable s.toList)

/-- Bytes between quotes with the mark `b` before them, printable ASCII kept. -/
def quotedBytes (bytes : List UInt8) : String :=
  String.ofList <| 'b' ::
    quotedWith (fun c => 0x20 ≤ c.toNat && c.toNat < 0x7F)
      (bytes.map fun byte => Char.ofNat byte.toNat)

end CallProfile.Text
