import CallProfile.Datum.Basic
import CallProfile.Decimal.Notation
import CallProfile.Text.Quoted

/-! # Showing data

How messages show a value: text and bytes between quotes, numbers in plain notation,
collections in brackets with a comma and a blank between neighbours.
-/

namespace CallProfile.Datum

mutual

/-- A value as messages show it. -/
def shown : Datum → String
  | .null => "None"
  | .bool true => "True"
  | .bool false => "False"
  | .int n => toString n
  | .real x => Decimal.Style.plain.write x
  | .text s => Text.quoted s
  | .bytes b => Text.quotedBytes b
  | .list items => "[" ++ ", ".intercalate (shownItems items) ++ "]"
  | .tuple [item] => "(" ++ shown item ++ ",)"
  | .tuple items => "(" ++ ", ".intercalate (shownItems items) ++ ")"
  | .map entries => "\x7b" ++ ", ".intercalate (shownEntries entries) ++ "\x7d"
  | .other shown _ _ _ _ => shown

def shownItems : List Datum → List String
  | [] => []
  | item :: items => shown item :: shownItems items

def shownEntries : List (Datum × Datum) → List String
  | [] => []
  | (key, value) :: entries => (shown key ++ ": " ++ shown value) :: shownEntries entries

end

/-- The most digits of a whole number that are read or written. -/
def digitLimit : Nat := 4300

mutual

/-- Whether no whole number in a value has more digits than are written. -/
def isShort : Datum → Bool
  | .int n => Decimal.digitCount n.natAbs ≤ digitLimit
  | .list items => areShort items
  | .tuple items => areShort items
  | .map entries => areShortEntries entries
  | _ => true

def areShort : List Datum → Bool
  | [] => true
  | item :: items => item.isShort && areShort items

def areShortEntries : List (Datum × Datum) → Bool
  | [] => true
  | (key, value) :: entries => key.isShort && value.isShort && areShortEntries entries

end

/-- A value as running text: a text stands for itself, anything else is shown. -/
def plain : Datum → String
  | .text s => s
  | .other _ plain _ _ _ => plain
  | d => d.shown

end CallProfile.Datum
