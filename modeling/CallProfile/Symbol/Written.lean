import CallProfile.Decimal.Notation
import CallProfile.Symbol.Listing
import CallProfile.Text.HexNumeral

/-! # Written listings

What the tool that lists symbols writes, line by line: an address, a size when it is known, the
letter of a type, a name of one or several words, and after a tab the place in the source. Nothing
is read here.
-/

namespace CallProfile

/-- Whether characters are a word: some characters, none of them a blank. -/
def IsWord (word : List Char) : Prop :=
  word ≠ [] ∧ ∀ c ∈ word, Text.isBlank c = false

instance (word : List Char) : Decidable (IsWord word) :=
  decidable_of_iff (word ≠ [] ∧ word.all (!Text.isBlank ·) = true) (by simp [IsWord])

/-- Whether characters can stand as a path in a line: none is a tab or ends a line, and no blanks
    surround them. -/
structure IsListedPath (path : List Char) : Prop where
  inLine : ∀ c ∈ path, c ≠ '\t' ∧ Text.endsLine c = false
  head : ∀ c ∈ path.head?, Text.isBlank c = false
  last : ∀ c ∈ path.getLast?, Text.isBlank c = false

/-- A place in the source: the path of a file and the number of a line. -/
structure ListedPlace where
  path : List Char
  line : Nat
  isPath : IsListedPath path

namespace ListedPlace

def text (p : ListedPlace) : List Char :=
  p.path ++ ':' :: Decimal.digitsOf p.line

/-- The file at a place. Neither question marks nor nothing at all is the path of one. -/
def file? (p : ListedPlace) : Option String :=
  if p.path = [] ∨ p.path = ['?', '?'] then none else some (String.ofList p.path)

end ListedPlace

/-- A symbol of any type as the tool lists it. -/
structure ListedSymbol where
  address : Text.HexNumeral
  size : Option Text.HexNumeral
  /-- The letter of the type. -/
  kind : Char
  /-- The words of the name. -/
  words : List (List Char)
  place : Option ListedPlace
  two_le_size : ∀ n ∈ size, 2 ≤ n.digits.length
  isAlpha : kind.isAlpha = true
  words_ne_nil : words ≠ []
  isWord : ∀ word ∈ words, IsWord word

namespace ListedSymbol

/-- The name, its words with one space between neighbours. -/
def name (s : ListedSymbol) : List Char :=
  Text.join [' '] s.words

/-- The part of a line before the name. -/
def front (s : ListedSymbol) : List Char :=
  match s.size with
  | none => s.address.digits ++ ' ' :: s.kind :: [' ']
  | some n => s.address.digits ++ ' ' :: (n.digits ++ ' ' :: s.kind :: [' '])

def text (s : ListedSymbol) : List Char :=
  match s.place with
  | none => s.front ++ s.name
  | some p => s.front ++ s.name ++ '\t' :: p.text

def isCode (s : ListedSymbol) : Bool :=
  s.kind = 'T' || s.kind = 't' || s.kind = 'W' || s.kind = 'w'

/-- The end of a symbol, when it has a size that is not zero. -/
def stop (s : ListedSymbol) : Option Int :=
  match s.size with
  | none => none
  | some n => if n.value = 0 then none else some (s.address.value + n.value)

/-- The row that a symbol stands for. -/
def row (s : ListedSymbol) : SymbolRow where
  name := String.ofList s.name
  start := s.address.value
  stop := s.stop
  source := s.place.bind ListedPlace.file?

end ListedSymbol

/-- A line of a listing: a symbol, or blanks alone. -/
inductive ListedLine where
  | blank (blanks : List Char) (isBlank : ∀ c ∈ blanks, Text.isBlank c = true)
      (inLine : ∀ c ∈ blanks, Text.endsLine c = false)
  | symbol (s : ListedSymbol)

namespace ListedLine

def text : ListedLine → List Char
  | .blank blanks _ _ => blanks
  | .symbol s => s.text

/-- The symbol of a line, when it is one of code. -/
def code? : ListedLine → Option ListedSymbol
  | .blank .. => none
  | .symbol s => if s.isCode then some s else none

/-- The text of a listing, with a line feed between neighbours. -/
def listing (lines : List ListedLine) : String :=
  String.ofList (Text.join ['\n'] (lines.map text))

def rows (lines : List ListedLine) : List SymbolRow :=
  (lines.filterMap code?).map ListedSymbol.row

end ListedLine

end CallProfile
