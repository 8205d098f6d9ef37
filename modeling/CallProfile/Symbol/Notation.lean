import CallProfile.Symbol.Entry
import CallProfile.Text.HexNumeral

/-! # Notations of symbol maps

A symbol map can write an address as a whole number or as a text in base sixteen, and it can tell
the end of a range or its size. What is written either way is kept apart here from how it is read.
-/

namespace CallProfile

/-- The mark of the base in front of an address. -/
inductive BaseMark where
  | none
  | lower
  | upper
  deriving Repr, DecidableEq

/-- The characters of a mark. -/
def BaseMark.text : BaseMark → List Char
  | .none => []
  | .lower => ['0', 'x']
  | .upper => ['0', 'X']

/-- An address as a text in base sixteen, with or without a mark, between blanks. -/
structure WrittenAddress where
  before : List Char
  mark : BaseMark
  numeral : Text.HexNumeral
  after : List Char
  isBlank_before : ∀ c ∈ before, Text.isBlank c = true
  isBlank_after : ∀ c ∈ after, Text.isBlank c = true

def WrittenAddress.text (a : WrittenAddress) : String :=
  String.ofList (a.before ++ (a.mark.text ++ a.numeral.digits) ++ a.after)

/-- Whether a value is a notation of an address. -/
inductive Datum.Notes : Datum → Nat → Prop where
  | int (n : Nat) : Notes (.int n) n
  | text (a : WrittenAddress) : Notes (.text a.text) a.numeral.value

namespace Entry

/-- Whether a value is read as an address, wherever it stands. -/
def ReadAs (d : Datum) (n : Int) : Prop :=
  ∀ place, addressOf place d = .ok n

/-- Whether two mappings hold the same under all texts but some. -/
def AgreeBut (names : List String) (a b : List (Datum × Datum)) : Prop :=
  ∀ name, name ∉ names → Datum.lookup? name a = Datum.lookup? name b

/-- Whether an entry has one part of another one in a different notation: an address that it
    holds, or the size of a range in the place of an end above the start. -/
inductive Respelled : Datum → Datum → Prop where
  | address {a b : List (Datum × Datum)} {name : String} {d e : Datum} {n : Nat}
      (known : name ∈ ["start", "end", "size"])
      (held : Datum.lookup? name a = some d) (notes : d.Notes n)
      (holds : Datum.lookup? name b = some e) (notes' : e.Notes n)
      (others : AgreeBut [name] a b) : Respelled (.map a) (.map b)
  | size {a b : List (Datum × Datum)} {start stop size : Datum} {first last : Int}
      (starts : Datum.lookup? "start" a = some start) (first_read : ReadAs start first)
      (stops : Datum.lookup? "end" a = some stop) (last_read : ReadAs stop last)
      (above : first < last)
      (unstopped : (Datum.lookup? "end" b).getD .null = .null)
      (sized : Datum.lookup? "size" b = some size) (size_read : ReadAs size (last - first))
      (others : AgreeBut ["end", "size"] a b) : Respelled (.map a) (.map b)

end Entry

end CallProfile
