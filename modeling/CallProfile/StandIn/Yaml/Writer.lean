import CallProfile.Datum.Basic
import CallProfile.Decimal.Notation
import CallProfile.Text.Hex
import CallProfile.StandIn.Yaml.Style

/-! # Writing YAML documents, stood in for

Mappings and lists are written as blocks, every entry on a line of its own. A mapping in
a mapping is indented by two spaces; a list is not. A long text is broken at a space once
its line is full.
-/

namespace CallProfile.StandIn.Yaml

/-- The width at which a line is full. -/
def fullWidth : Nat := 80

/-- A line break and the spaces before the next line. -/
def newLine (indent : Nat) : List Char :=
  '\n' :: List.replicate indent ' '

/-- The column behind a text that starts at a column. -/
def columnAfter (column : Nat) (s : List Char) : Nat :=
  s.foldl (fun column c => if c = '\n' then 0 else column + 1) column

/-- Write a plain text from a column on; `spaces` are still to be written. Where one
    space stands on a full line the text goes on in the next one. -/
def plainText (canBreak : Bool) (indent : Nat) : (column spaces : Nat) → List Char → List Char
  | _, spaces, [] => List.replicate spaces ' '
  | column, spaces, c :: rest =>
      if c = ' ' then plainText canBreak indent column (spaces + 1) rest
      else if spaces = 1 && canBreak && fullWidth < column then
        newLine indent ++ c :: plainText canBreak indent (indent + 1) 0 rest
      else
        List.replicate spaces ' ' ++
          c :: plainText canBreak indent (column + spaces + 1) 0 rest

/-- Line breaks inside single quotes: an extra one stands before them. -/
def writtenBreaks (indent : Nat) (breaks : List Char) : List Char :=
  (if breaks.head? = some '\n' then ['\n'] else []) ++ breaks ++ List.replicate indent ' '

/-- Write a text inside single quotes from a column on; `spaces` and `breaks` are still to
    be written, of which at most one is not empty. -/
def singleText (canBreak : Bool) (indent : Nat) :
    (isFirst : Bool) → (column spaces : Nat) → (breaks : List Char) → List Char → List Char
  | _, _, spaces, breaks, [] =>
      if breaks.isEmpty then List.replicate spaces ' ' else writtenBreaks indent breaks
  | isFirst, column, spaces, breaks, c :: rest =>
      let gap :=
        if !breaks.isEmpty then writtenBreaks indent breaks
        else if spaces = 1 && canBreak && !isFirst && fullWidth < column then newLine indent
        else List.replicate spaces ' '
      if c = ' ' && breaks.isEmpty then
        singleText canBreak indent isFirst column (spaces + 1) [] rest
      else if isBreak c && spaces = 0 then
        singleText canBreak indent isFirst column 0 (breaks ++ [c]) rest
      else
        let column := columnAfter column gap
        if c = ' ' then gap ++ singleText canBreak indent false column 1 [] rest
        else if isBreak c then gap ++ singleText canBreak indent false column 0 [c] rest
        else
          let shown := if c = '\x27' then [c, c] else [c]
          gap ++ shown ++ singleText canBreak indent false (column + shown.length) 0 [] rest

/-- The letters of the escapes inside double quotes. -/
def escapeLetters : List (Char × Char) :=
  [('\x00', '0'), ('\x07', 'a'), ('\x08', 'b'), ('\t', 't'), ('\n', 'n'), ('\x0b', 'v'),
    ('\x0c', 'f'), ('\r', 'r'), ('\x1b', 'e'), ('\x22', '\x22'), ('\\', '\\'), ('\u0085', 'N'),
    ('\u00a0', '_'), ('\u2028', 'L'), ('\u2029', 'P')]

/-- Whether a character stands for itself inside double quotes. -/
def isBare (c : Char) : Bool :=
  let n := c.toNat
  c ≠ '\x22' && c ≠ '\\' && n ≠ 0x2028 && n ≠ 0x2029 && n ≠ 0xFEFF &&
    ((0x20 ≤ n && n ≤ 0x7E) || (0xA0 ≤ n && n ≤ 0xFFFD))

/-- A number as upper-case hexadecimal digits. -/
def upperHex (width n : Nat) : List Char :=
  (Text.paddedHexDigits width n).map Char.toUpper

def escape (c : Char) : List Char :=
  match escapeLetters.lookup c with
  | some letter => ['\\', letter]
  | none =>
      let n := c.toNat
      if n ≤ 0xFF then '\\' :: 'x' :: upperHex 2 n
      else if n ≤ 0xFFFF then '\\' :: 'u' :: upperHex 4 n
      else '\\' :: 'U' :: upperHex 8 n

/-- Write a text inside double quotes from a column on. A line may be broken at a space
    and next to an escape; a backslash stands before the break, and before a space behind
    it. -/
def doubleText (canBreak : Bool) (indent : Nat) :
    (isFirst afterEscape : Bool) → (column : Nat) → List Char → List Char
  | _, _, _, [] => []
  | isFirst, afterEscape, column, c :: rest =>
      let mayBreak := canBreak && !isFirst && !rest.isEmpty
      if isBare c then
        if mayBreak && (c = ' ' || afterEscape) && fullWidth < column then
          let start := if c = ' ' then ['\\', c] else [c]
          '\\' :: newLine indent ++ start ++
            doubleText canBreak indent false false (indent + start.length) rest
        else c :: doubleText canBreak indent false false (column + 1) rest
      else
        let shown := escape c
        let column := column + shown.length
        if mayBreak && fullWidth + 1 < column then
          let start := if rest.head? = some ' ' then ['\\'] else []
          shown ++ '\\' :: newLine indent ++ start ++
            doubleText canBreak indent false true (indent + start.length) rest
        else shown ++ doubleText canBreak indent false true column rest

/-- Write a text from a column on; the lines behind the first one are indented. -/
def writeText (isKey : Bool) (indent column : Nat) (s : String) : List Char :=
  match styleOf isKey s with
  | .plain => plainText (!isKey) indent column 0 s.toList
  | .single => '\x27' :: singleText (!isKey) indent true (column + 1) 0 [] s.toList ++ ['\x27']
  | .double =>
      '\x22' :: doubleText (!isKey) indent true false (column + 1) s.toList ++ ['\x22']

def writeScalar (isKey : Bool) (indent column : Nat) : Datum → List Char
  | .null => "null".toList
  | .bool b => (if b then "true" else "false").toList
  | .int n => (toString n).toList
  | .real x => (Decimal.Style.yaml.write x).toList
  | .text s => writeText isKey indent column s
  | .bytes b => writeText isKey indent column (Text.bytesHex b)
  | .list _ => "[]".toList
  | .tuple _ => "[]".toList
  | .map _ => "\x7b\x7d".toList
  | .other _ plain _ _ _ => writeText isKey indent column plain

/-- The length of a key's tag, which counts for its length. -/
def tagLength : Datum → Nat
  | .bool _ => 6
  | .null => 6
  | .real _ => 7
  | _ => 5

/-- Whether a key stands on one line with its value. -/
def isSimpleKey (key : Datum) : Bool :=
  match key with
  | .text s => s ≠ "" && !s.toList.any isBreak && tagLength key + s.length < 128
  | key => tagLength key + (writeScalar true 0 0 key).length < 128

mutual

/-- Write a value behind a mark that ends at a column. In a block indented by `indent`, the
    value's own block is indented further; it may start on the line of the mark. -/
def writeBehindMark (indent column : Nat) : Datum → List Char
  | .map (e :: entries) => ' ' :: writeEntries (indent + 2) true (e :: entries)
  | .list (d :: items) => ' ' :: writeItems (indent + 2) true (d :: items)
  | .tuple (d :: items) => ' ' :: writeItems (indent + 2) true (d :: items)
  | d => ' ' :: writeScalar false (indent + 2) (column + 1) d

/-- Write a value behind its key, whose colon ends at a column. -/
def writeBehindKey (indent column : Nat) : Datum → List Char
  | .map (e :: entries) => writeEntries (indent + 2) false (e :: entries)
  | .list (d :: items) => writeItems indent false (d :: items)
  | .tuple (d :: items) => writeItems indent false (d :: items)
  | d => ' ' :: writeScalar false (indent + 2) (column + 1) d

/-- Write the items of a block; the first one may be on a line that has been begun. -/
def writeItems (indent : Nat) (isBegun : Bool) : List Datum → List Char
  | [] => []
  | d :: items =>
      (if isBegun then [] else newLine indent) ++ '-' :: writeBehindMark indent (indent + 1) d ++
        writeItems indent false items

/-- Write the entries of a block; the first one may be on a line that has been begun. -/
def writeEntries (indent : Nat) (isBegun : Bool) : List (Datum × Datum) → List Char
  | [] => []
  | (key, value) :: entries =>
      let start := if isBegun then [] else newLine indent
      let entry :=
        if isSimpleKey key then
          let name := writeScalar true (indent + 2) indent key
          name ++ ':' :: writeBehindKey indent (indent + name.length + 1) value
        else
          '?' :: ' ' :: writeScalar false (indent + 2) (indent + 2) key ++ newLine indent ++
            ':' :: writeBehindMark indent (indent + 1) value
      start ++ entry ++ writeEntries indent false entries

end

def write : Datum → String
  | .map (e :: entries) => String.ofList (writeEntries 0 true (e :: entries) ++ ['\n'])
  | .list (d :: items) => String.ofList (writeItems 0 true (d :: items) ++ ['\n'])
  | d => String.ofList (writeScalar false 2 0 d ++ ['\n'])

end CallProfile.StandIn.Yaml
