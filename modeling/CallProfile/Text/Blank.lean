/-! # Blanks, words and lines

Text is read as a list of characters. A *blank* separates words; some blanks and
a few control characters also end a line. Every splitting function below only
cuts: the pieces it returns are runs of the text it was given.
-/

namespace CallProfile.Text

/-- The blanks of the Unicode standard, the four information separators
    `U+001C` to `U+001F` among them. The zero-width space is no blank. -/
def isBlank (c : Char) : Bool :=
  let n := c.toNat
  (9 ≤ n && n ≤ 13) || (28 ≤ n && n ≤ 32) || n == 0x85 || n == 0xA0 || n == 0x1680 ||
    (0x2000 ≤ n && n ≤ 0x200A) || n == 0x2028 || n == 0x2029 || n == 0x202F ||
    n == 0x205F || n == 0x3000

/-- The characters at which a line ends. A carriage return directly followed by
    a line feed ends one line, not two; `lines` sees to that. -/
def endsLine (c : Char) : Bool :=
  let n := c.toNat
  (10 ≤ n && n ≤ 13) || (28 ≤ n && n ≤ 30) || n == 0x85 || n == 0x2028 || n == 0x2029

/-- Drop the characters that satisfy `p` from both ends. -/
def trimWhere (p : Char → Bool) (s : List Char) : List Char :=
  ((s.dropWhile p).reverse.dropWhile p).reverse

/-- Drop the blanks at both ends. -/
def trim (s : List Char) : List Char :=
  trimWhere isBlank s

/-- The first `count` words and, when something is left after them, the rest.
    The rest starts at its first word and keeps the blanks inside it and after it. -/
def wordsThenRest : (count : Nat) → List Char → List (List Char)
  | 0, s =>
      match s.dropWhile isBlank with
      | [] => []
      | rest => [rest]
  | count + 1, s =>
      match s.dropWhile isBlank with
      | [] => []
      | c :: rest =>
          (c :: rest).takeWhile (!isBlank ·) ::
            wordsThenRest count ((c :: rest).dropWhile (!isBlank ·))

/-- The lines of a text, without what ends them. A text that ends with a line end
    has no empty last line. -/
def lines (s : List Char) : List (List Char) :=
  go [] s
where
  /-- `line` holds the characters of the current line, last one first. -/
  go : (line : List Char) → List Char → List (List Char)
    | [], [] => []
    | line, [] => [line.reverse]
    | line, '\r' :: '\n' :: rest => line.reverse :: go [] rest
    | line, c :: rest =>
        if endsLine c then line.reverse :: go [] rest else go (c :: line) rest

/-- The part before the first `mark` and the part after it, or the whole text and
    nothing when `mark` does not occur. -/
def cutAtFirst (mark : Char) (s : List Char) : List Char × List Char :=
  (s.takeWhile (· != mark), (s.dropWhile (· != mark)).drop 1)

/-- The part before the last `mark`, or the whole text when `mark` does not occur. -/
def beforeLast (mark : Char) (s : List Char) : List Char :=
  if s.contains mark then ((s.reverse.dropWhile (· != mark)).drop 1).reverse else s

/-- Write every line end of the forms `\r\n` and `\r` as `\n`. -/
def unifyLineEnds : List Char → List Char
  | [] => []
  | '\r' :: '\n' :: rest => '\n' :: unifyLineEnds rest
  | '\r' :: rest => '\n' :: unifyLineEnds rest
  | c :: rest => c :: unifyLineEnds rest

/-- What follows `start` in a text that begins with it. -/
def after? : (start : List Char) → List Char → Option (List Char)
  | [], s => some s
  | _ :: _, [] => none
  | a :: start, c :: s => if a = c then after? start s else none

def occurs (part : List Char) : List Char → Bool
  | [] => part.isEmpty
  | c :: s => part.isPrefixOf (c :: s) || occurs part s

/-- Join pieces with `separator` between neighbours. -/
def join (separator : List Char) (pieces : List (List Char)) : List Char :=
  separator.intercalate pieces

end CallProfile.Text
