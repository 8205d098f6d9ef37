import CallProfile.Datum.Basic
import CallProfile.Decimal.Notation
import CallProfile.Text.Hex

/-! # Writing JSON

Documents are written in ASCII. With an indentation every item has a line of its own,
indented once for each collection around it; without one the document is a single line.
-/

namespace CallProfile.Json

/-- A code unit of sixteen bits as an escape. -/
def unitEscape (n : Nat) : List Char :=
  '\\' :: 'u' :: Text.paddedHexDigits 4 n

/-- A character as it stands in a string. Beyond the sixteen bits of one escape it is
    written as a pair of surrogates. -/
def escaped (c : Char) : List Char :=
  if c = '\x22' then ['\\', '\x22']
  else if c = '\\' then ['\\', '\\']
  else if c = '\n' then ['\\', 'n']
  else if c = '\r' then ['\\', 'r']
  else if c = '\t' then ['\\', 't']
  else if c = '\x0c' then ['\\', 'f']
  else if c = '\x08' then ['\\', 'b']
  else if 0x20 ≤ c.toNat && c.toNat < 0x7F then [c]
  else if c.toNat < 0x10000 then unitEscape c.toNat
  else
    let n := c.toNat - 0x10000
    unitEscape (0xD800 + n / 0x400) ++ unitEscape (0xDC00 + n % 0x400)

def writeText (s : String) : String :=
  String.ofList ('\x22' :: s.toList.flatMap escaped ++ ['\x22'])

/-- What stands before an item at the given depth. -/
def lineStart (indent : Option Nat) (depth : Nat) : String :=
  match indent with
  | none => ""
  | some width => String.ofList ('\n' :: List.replicate (width * depth) ' ')

/-- What stands between two items at the given depth. -/
def separator (indent : Option Nat) (depth : Nat) : String :=
  match indent with
  | none => ", "
  | some _ => "," ++ lineStart indent depth

/-- Put items between brackets at the given depth; without items the brackets touch. -/
def bracketed (indent : Option Nat) (depth : Nat) (left right : String) :
    List String → String
  | [] => left ++ right
  | items =>
      left ++ lineStart indent (depth + 1) ++
        (separator indent (depth + 1)).intercalate items ++ lineStart indent depth ++ right

mutual

/-- A value at the given depth. Bytes are written as hexadecimal digits. -/
def writeAt (indent : Option Nat) (depth : Nat) : Datum → String
  | .null => "null"
  | .bool true => "true"
  | .bool false => "false"
  | .int n => toString n
  | .real x => Decimal.Style.json.write x
  | .text s => writeText s
  | .bytes b => writeText (Text.bytesHex b)
  | .list items => bracketed indent depth "[" "]" (writeItems indent (depth + 1) items)
  | .tuple items => bracketed indent depth "[" "]" (writeItems indent (depth + 1) items)
  | .map entries =>
      bracketed indent depth "\x7b" "\x7d" (writeMembers indent (depth + 1) entries)
  | .other _ plain _ _ _ => writeText plain

def writeItems (indent : Option Nat) (depth : Nat) : List Datum → List String
  | [] => []
  | item :: items => writeAt indent depth item :: writeItems indent depth items

def writeMembers (indent : Option Nat) (depth : Nat) : List (Datum × Datum) → List String
  | [] => []
  | (key, item) :: entries =>
      (memberName key ++ ": " ++ writeAt indent depth item) ::
        writeMembers indent depth entries

/-- A key as the name of a member. -/
def memberName : Datum → String
  | .text s => writeText s
  | .null => writeText "null"
  | .bool b => writeText (if b then "true" else "false")
  | .int n => writeText (toString n)
  | .real x => writeText (Decimal.Style.json.write x)
  | _ => writeText ""

end

def write (indent : Option Nat) (d : Datum) : String :=
  writeAt indent 0 d

end CallProfile.Json
