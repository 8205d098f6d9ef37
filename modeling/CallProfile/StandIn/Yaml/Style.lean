import CallProfile.Decimal.Read

/-! # How a text is written in a YAML document

A text is written plain where it reads back as the same text. Otherwise it stands in
single quotes, or in double quotes when a character has to be written as an escape.

Whether a text reads back as a text follows the older rules, by which `yes` is a truth
value and `1:30` a number. On top of that, everything that spells a number in any way is
put in quotes.
-/

namespace CallProfile.StandIn.Yaml

/-- How a text is written. -/
inductive Style where
  | plain
  | single
  | double
  deriving Repr, DecidableEq

/-- Words that some readers take for truth values. -/
def truthWords : List String :=
  ["y", "Y", "yes", "Yes", "YES", "n", "N", "no", "No", "NO", "true", "True", "TRUE",
    "false", "False", "FALSE", "on", "On", "ON", "off", "Off", "OFF"]

/-- Words and marks that mean something of their own. -/
def otherWords : List String :=
  ["", "~", "null", "Null", "NULL", "<<", "=", "!", "&", "*", ".inf", ".Inf", ".INF", "-.inf",
    "-.Inf", "-.INF", "+.inf", "+.Inf", "+.INF", ".nan", ".NaN", ".NAN"]

/-- Drop a sign. -/
def withoutSign : List Char → List Char
  | '-' :: s => s
  | '+' :: s => s
  | s => s

/-- Whether a text is not empty and all its characters satisfy a condition. -/
def isAll (holds : Char → Bool) (s : List Char) : Bool :=
  !s.isEmpty && s.all holds

/-- Whether a character is a digit or an underscore. -/
def isSpacedDigit (c : Char) : Bool :=
  c.isDigit || c = '_'

/-- Whether a text is a part of a number to the base sixty: one or two digits, below
    sixty. -/
def isSixtieth : List Char → Bool
  | [a] => a.isDigit
  | [a, b] => a.isDigit && a.toNat < 54 && b.isDigit
  | _ => false

/-- Whether a text is several numbers to the base sixty between colons, the first one with
    as many digits as it likes. -/
def isSexagesimal (first : List Char → Bool) (s : List Char) : Bool :=
  match s.splitOn ':' with
  | head :: parts => first head && !parts.isEmpty && parts.all isSixtieth
  | [] => false

/-- Whether a text starts with a digit and goes on with digits and underscores. -/
def isSpacedNumber (s : List Char) : Bool :=
  s.head?.any Char.isDigit && s.all isSpacedDigit

/-- Whether an unsigned text reads as a whole number. -/
def readsAsInt (s : List Char) : Bool :=
  match s with
  | '0' :: 'b' :: digits => isAll (fun c => c = '0' || c = '1' || c = '_') digits
  | '0' :: 'x' :: digits =>
      isAll (fun c => c = '_' || (Text.digitBelow? 16 c).isSome) digits
  | '0' :: digits => digits.all fun c => c = '_' || (Text.digitBelow? 8 c).isSome
  | s => isSpacedNumber s || isSexagesimal isSpacedNumber s

/-- Whether a text is an exponent with a sign, or nothing. -/
def isSignedExponent : List Char → Bool
  | [] => true
  | e :: sign :: digits =>
      (e = 'e' || e = 'E') && (sign = '+' || sign = '-') && isAll Char.isDigit digits
  | _ => false

/-- Whether an unsigned text reads as a number with a point. -/
def readsAsReal (s : List Char) : Bool :=
  let whole := s.takeWhile (· ≠ '.')
  match s.dropWhile (· ≠ '.') with
  | '.' :: rest =>
      let fraction := rest.takeWhile isSpacedDigit
      let exponent := rest.dropWhile isSpacedDigit
      if whole.isEmpty then fraction.head?.any Char.isDigit && isSignedExponent exponent
      else
        (isSpacedNumber whole && isSignedExponent exponent) ||
          (isSexagesimal isSpacedNumber whole && exponent.isEmpty)
  | _ => false

/-- Whether a text is a number with as many digits as given. -/
def hasDigits (least most : Nat) (s : List Char) : Bool :=
  least ≤ s.length && s.length ≤ most && s.all Char.isDigit

/-- Whether a text is the zone of a time: `Z`, or hours and perhaps minutes with a sign. -/
def isZone (s : List Char) : Bool :=
  match s with
  | [] => true
  | ['Z'] => true
  | sign :: zone =>
      (sign = '+' || sign = '-') &&
        match zone.splitOn ':' with
        | [hours] => hasDigits 1 2 hours
        | [hours, minutes] => hasDigits 1 2 hours && hasDigits 2 2 minutes
        | _ => false

/-- Whether a text is a time of the day, perhaps with a zone. -/
def isTime (s : List Char) : Bool :=
  let isClock (c : Char) : Bool := c.isDigit || c = ':' || c = '.'
  let clock := s.takeWhile isClock
  let zone := (s.dropWhile isClock).dropWhile fun c => c = ' ' || c = '\t'
  match clock.splitOn ':' with
  | [hours, minutes, seconds] =>
      let fraction := seconds.dropWhile Char.isDigit
      hasDigits 1 2 hours && hasDigits 2 2 minutes &&
        hasDigits 2 2 (seconds.takeWhile Char.isDigit) &&
        (fraction.isEmpty || fraction.head? = some '.') && (fraction.drop 1).all Char.isDigit &&
        isZone zone
  | _ => false

/-- Whether a text reads as a date, perhaps with a time. -/
def readsAsDate (s : List Char) : Bool :=
  let isDate (c : Char) : Bool := c.isDigit || c = '-'
  let date := s.takeWhile isDate
  let rest := s.dropWhile isDate
  match date.splitOn '-' with
  | [year, month, day] =>
      hasDigits 4 4 year &&
        match rest with
        | [] => hasDigits 2 2 month && hasDigits 2 2 day
        | c :: more =>
            hasDigits 1 2 month && hasDigits 1 2 day &&
              if c = 'T' || c = 't' then isTime more
              else (c = ' ' || c = '\t') && isTime (more.dropWhile fun c => c = ' ' || c = '\t')
  | _ => false

/-- Whether a plain text reads back as something else that is no truth value. -/
def readsAsOther (s : String) : Bool :=
  let chars := s.toList
  otherWords.contains s || readsAsInt (withoutSign chars) ||
    readsAsReal (withoutSign chars) || readsAsDate chars

/-- Whether a text spells a truth value or a number in any way. -/
def needsQuotes (s : String) : Bool :=
  truthWords.contains s || (Text.numeral? 10 s.toList).isSome ||
    (Decimal.read? s.toList).isSome

def isBreak (c : Char) : Bool :=
  c = '\n' || c = '\u0085' || c = '\u2028' || c = '\u2029'

/-- Whether a character separates words. -/
def separates (c : Char) : Bool :=
  c = ' ' || c = '\t' || c = '\r' || c = '\x00' || isBreak c

/-- Whether a character can be written only as an escape. -/
def isSpecial (c : Char) : Bool :=
  let n := c.toNat
  !(c = '\n' || (0x20 ≤ n && n ≤ 0x7E) || n = 0x85 ||
    (0xA0 ≤ n && n ≤ 0xFFFD && n ≠ 0xFEFF) || (0x10000 ≤ n && n < 0x10FFFF))

/-- Whether one kind of character stands directly before another somewhere. -/
def hasPair (first second : Char → Bool) : List Char → Bool
  | a :: b :: rest => (first a && second b) || hasPair first second (b :: rest)
  | _ => false

/-- Whether a mark behind the first character makes a text something else: a colon before
    a gap, or a hash behind one. -/
def hasInnerMark : List Char → Bool
  | previous :: c :: rest =>
      (c = ':' && (rest.isEmpty || rest.head?.any separates)) ||
        (c = '#' && separates previous) || hasInnerMark (c :: rest)
  | _ => false

/-- Whether the first character of a text means something of its own. -/
def hasFirstMark : List Char → Bool
  | [] => false
  | c :: rest =>
      "#,[]\x7b\x7d&*!|>'\x22%@`".toList.contains c ||
        ("?:-".toList.contains c && (rest.isEmpty || rest.head?.any separates))

def startsDocument : List Char → Bool
  | '-' :: '-' :: '-' :: _ => true
  | '.' :: '.' :: '.' :: _ => true
  | _ => false

/-- Whether a text may stand plain in a block. -/
def allowsPlain (s : List Char) : Bool :=
  let isEdge (c : Char) : Bool := c = ' ' || isBreak c
  !(s.head?.any isEdge || s.getLast?.any isEdge || s.any isBreak || s.any isSpecial ||
    hasFirstMark s || startsDocument s || hasInnerMark s)

/-- Whether a text may stand in single quotes: no space stands next to a line break, and
    every character can be written. -/
def allowsSingle (s : List Char) : Bool :=
  !(hasPair isBreak (· = ' ') s || hasPair (· = ' ') isBreak s || s.any isSpecial)

/-- The style of a text; a key stands on one line. -/
def styleOf (isKey : Bool) (s : String) : Style :=
  let chars := s.toList
  let isPlain := !needsQuotes s && !readsAsOther s && allowsPlain chars
  if isPlain && !(isKey && chars.isEmpty) then .plain
  else if allowsSingle chars && !(isKey && chars.any isBreak) then .single
  else .double

end CallProfile.StandIn.Yaml
