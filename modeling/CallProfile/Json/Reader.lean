import CallProfile.Datum.Shown
import CallProfile.Decimal.Read
import CallProfile.Text.Blank
import CallProfile.Text.Hex

/-! # Reading JSON

A reader for JSON documents. Beyond the standard it takes `NaN`, `Infinity` and
`-Infinity` as numbers; of two members with one name the later value counts, at the
place of the earlier. A text that is no document is refused with the reason and the
place where reading stopped.

Every reading function returns what it read together with the rest of the text. A
stop remembers how many characters were left, which tells its place.
-/

namespace CallProfile.Json

/-- What reading expected or found wrong. -/
inductive Reason where
  | value
  | memberName
  | colon
  | comma
  | extraData
  | unterminated
  | control
  | escape
  | unicodeEscape
  | byteOrderMark
  deriving Repr, DecidableEq

def Reason.message : Reason → String
  | .value => "Expecting value"
  | .memberName => "Expecting property name enclosed in double quotes"
  | .colon => "Expecting ':' delimiter"
  | .comma => "Expecting ',' delimiter"
  | .extraData => "Extra data"
  | .unterminated => "Unterminated string starting at"
  | .control => "Invalid control character at"
  | .escape => "Invalid \\escape"
  | .unicodeEscape => "Invalid \\uXXXX escape"
  | .byteOrderMark => "Unexpected UTF-8 BOM (decode using utf-8-sig)"

/-- Why and where a text is no JSON document. Lines and columns count from one, the
    offset from zero. -/
structure Defect where
  reason : Reason
  line : Nat
  column : Nat
  offset : Nat
  deriving Repr, DecidableEq

def Defect.message (d : Defect) : String :=
  s!"{d.reason.message}: line {d.line} column {d.column} (char {d.offset})"

/-- Why a text was not read. -/
inductive Refusal where
  /-- It is no JSON document. -/
  | defect (d : Defect)
  /-- A whole number has more digits than are converted. -/
  | longNumeral (digits : Nat)
  /-- A string holds half of a surrogate pair, which is no character. -/
  | halfCharacter
  deriving Repr, DecidableEq

/-- A stop while reading: the reason, and how many characters were left. -/
inductive Stop where
  | at (reason : Reason) (left : Nat)
  | longNumeral (digits : Nat)
  | halfCharacter
  deriving Repr, DecidableEq

/-- The blanks between the parts of a document. -/
def isBlank (c : Char) : Bool :=
  c = ' ' || c = '\t' || c = '\n' || c = '\r'

/-- Drop the blanks in front. -/
def skip (s : List Char) : List Char :=
  s.dropWhile isBlank

/-- The code point of an escape with one letter. -/
def letterEscape? : Char → Option Nat
  | '\x22' => some 0x22
  | '\\' => some 0x5C
  | '/' => some 0x2F
  | 'b' => some 8
  | 'f' => some 12
  | 'n' => some 10
  | 'r' => some 13
  | 't' => some 9
  | _ => none

def fourDigits? (a b c d : Char) : Option Nat := do
  return ((← Text.hexDigit? a) * 16 + (← Text.hexDigit? b)) * 256 +
    ((← Text.hexDigit? c) * 16 + (← Text.hexDigit? d))

/-- The code points of a string whose opening quote has been read with `opening`
    characters left, surrogates still single. -/
def units (opening : Nat) :
    List Char → Except Stop (List Nat × List Char)
  | [] => .error (.at .unterminated opening)
  | '\x22' :: rest => .ok ([], rest)
  | ['\\'] => .error (.at .unterminated opening)
  | '\\' :: 'u' :: a :: b :: c :: d :: rest =>
      match rest, fourDigits? a b c d with
      | _ :: _, some unit => do
          let (more, rest) ← units opening rest
          return (unit :: more, rest)
      | _, _ => .error (.at .unicodeEscape (rest.length + 5))
  | '\\' :: 'u' :: rest => .error (.at .unicodeEscape (rest.length + 1))
  | '\\' :: letter :: rest =>
      match letterEscape? letter with
      | some unit => do
          let (more, rest) ← units opening rest
          return (unit :: more, rest)
      | none => .error (.at .escape (rest.length + 2))
  | c :: rest =>
      if c.toNat < 0x20 then .error (.at .control (rest.length + 1))
      else do
        let (more, rest) ← units opening rest
        return (c.toNat :: more, rest)

def isHighSurrogate (n : Nat) : Bool :=
  0xD800 ≤ n && n < 0xDC00

def isLowSurrogate (n : Nat) : Bool :=
  0xDC00 ≤ n && n < 0xE000

/-- The characters of code points: two halves make one character. There is none for a half
    by itself. -/
def charsOfUnits? : List Nat → Option (List Char)
  | [] => some []
  | [n] => if isHighSurrogate n || isLowSurrogate n then none else some [Char.ofNat n]
  | n :: m :: rest =>
      if isHighSurrogate n && isLowSurrogate m then
        (charsOfUnits? rest).map
          (Char.ofNat (0x10000 + (n - 0xD800) * 0x400 + (m - 0xDC00)) :: ·)
      else if isHighSurrogate n || isLowSurrogate n then none
      else (charsOfUnits? (m :: rest)).map (Char.ofNat n :: ·)

def string (s : List Char) : Except Stop (String × List Char) := do
  let (points, rest) ← units (s.length + 1) s
  match charsOfUnits? points with
  | some chars => return (String.ofList chars, rest)
  | none => throw .halfCharacter

/-- The digits of a number after its sign: a zero, or digits that start with another. -/
def wholeDigits? : List Char → Option (List Char × List Char)
  | '0' :: rest => some (['0'], rest)
  | s =>
      if (s.takeWhile Char.isDigit).isEmpty then none
      else some (s.takeWhile Char.isDigit, s.dropWhile Char.isDigit)

/-- The digits after a point; a point without digits is not read. -/
def fraction : List Char → List Char × List Char
  | '.' :: rest =>
      if (rest.takeWhile Char.isDigit).isEmpty then ([], '.' :: rest)
      else (rest.takeWhile Char.isDigit, rest.dropWhile Char.isDigit)
  | s => ([], s)

/-- The exponent; a mark without digits is not read. -/
def exponent? (s : List Char) : Option (Int × List Char) :=
  match s with
  | mark :: rest =>
      if mark = 'e' || mark = 'E' then
        let (negative, digits) :=
          match rest with
          | '-' :: digits => (true, digits)
          | '+' :: digits => (false, digits)
          | digits => (false, digits)
        if (digits.takeWhile Char.isDigit).isEmpty then none
        else
          let n := Decimal.digitsValue (digits.takeWhile Char.isDigit)
          some (if negative then -(n : Int) else n, digits.dropWhile Char.isDigit)
      else none
  | [] => none

/-- A number after its sign, which `negative` tells. -/
def unsignedNumber? (negative : Bool) (s : List Char) :
    Option (Except Stop (Datum × List Char)) := do
  let (whole, rest) ← wholeDigits? s
  let (places, rest) := fraction rest
  match exponent? rest with
  | some (exponent, rest) =>
      let x := Decimal.Spelling.value negative ⟨whole, places, exponent⟩
      return .ok (.real x, rest)
  | none =>
      if places.isEmpty then
        let n := Decimal.digitsValue whole
        return if Datum.digitLimit < whole.length then .error (.longNumeral whole.length)
          else .ok (.int (if negative then -(n : Int) else n), rest)
      else return .ok (.real (Decimal.Spelling.value negative ⟨whole, places, 0⟩), rest)

def words : List (List Char × Datum) :=
  [("null".toList, .null), ("true".toList, .bool true), ("false".toList, .bool false),
    ("NaN".toList, .real Decimal.notANumber),
    ("Infinity".toList, .real (Decimal.infinity false)),
    ("-Infinity".toList, .real (Decimal.infinity true))]

/-- A word or a number. -/
def atom (s : List Char) : Except Stop (Datum × List Char) :=
  match words.findSome? fun (word, d) => (Text.after? word s).map fun rest => (d, rest) with
  | some result => .ok result
  | none =>
      let number :=
        match s with
        | '-' :: digits => unsignedNumber? true digits
        | digits => unsignedNumber? false digits
      match number with
      | some result => result
      | none => .error (.at .value s.length)

mutual

/-- A value. Each nested call takes one unit of `fuel`; twice the length of the text is
    more than any document needs. -/
def value : (fuel : Nat) → List Char → Except Stop (Datum × List Char)
  | 0, s => .error (.at .value s.length)
  | fuel + 1, s =>
      match s with
      | '\x22' :: rest => do
          let (text, rest) ← string rest
          return (.text text, rest)
      | '{' :: rest =>
          match skip rest with
          | '}' :: rest => .ok (.map [], rest)
          | rest => members fuel [] rest
      | '[' :: rest =>
          match skip rest with
          | ']' :: rest => .ok (.list [], rest)
          | rest => do
              let (items, rest) ← elements fuel rest
              return (.list items, rest)
      | s => atom s

/-- The values of a list up to its closing bracket, at least one. -/
def elements : (fuel : Nat) → List Char → Except Stop (List Datum × List Char)
  | 0, s => .error (.at .value s.length)
  | fuel + 1, s => do
      let (item, rest) ← value fuel s
      match skip rest with
      | ']' :: rest => return ([item], rest)
      | ',' :: rest =>
          let (items, rest) ← elements fuel (skip rest)
          return (item :: items, rest)
      | rest => .error (.at .comma rest.length)

/-- The members of an object up to its closing brace, at least one, after those in
    `before`. -/
def members : (fuel : Nat) → (before : List (Datum × Datum)) → List Char →
    Except Stop (Datum × List Char)
  | 0, _, s => .error (.at .value s.length)
  | fuel + 1, before, s =>
      match s with
      | '\x22' :: rest => do
          let (name, rest) ← string rest
          match skip rest with
          | ':' :: rest =>
              let (item, rest) ← value fuel (skip rest)
              let entries := Datum.put name item before
              match skip rest with
              | '}' :: rest => return (.map entries, rest)
              | ',' :: rest => members fuel entries (skip rest)
              | rest => .error (.at .comma rest.length)
          | rest => .error (.at .colon rest.length)
      | s => .error (.at .memberName s.length)

end

/-- A whole document: one value with nothing but blanks around it. -/
def document (s : List Char) : Except Stop Datum :=
  match s with
  | '\uFEFF' :: _ => .error (.at .byteOrderMark s.length)
  | s => do
      let (d, rest) ← value (2 * s.length + 2) (skip s)
      match skip rest with
      | [] => return d
      | rest => .error (.at .extraData rest.length)

/-- The place in a text that has `left` characters after it. -/
def defectAt (text : List Char) (reason : Reason) (left : Nat) : Defect :=
  let before := text.take (text.length - left)
  { reason
    line := before.count '\n' + 1
    column := (before.reverse.takeWhile (· != '\n')).length + 1
    offset := before.length }

def read (text : String) : Except Refusal Datum :=
  match document text.toList with
  | .ok d => .ok d
  | .error (.at reason left) => .error (.defect (defectAt text.toList reason left))
  | .error (.longNumeral digits) => .error (.longNumeral digits)
  | .error .halfCharacter => .error .halfCharacter

end CallProfile.Json
