import CallProfile.Datum.Number

/-! # Values of settings, stood in for

How values are spelled when a setting is changed: words, numbers, text between quotes,
lists in brackets and mappings in braces. Words and numbers side by side are one text.
-/

namespace CallProfile.StandIn.Config

/-- Why a change of a configuration cannot be made. -/
inductive ChangeProblem where
  /-- The change cannot be read. -/
  | unreadable
  /-- The change gives several values for one setting. -/
  | severalValues
  /-- There is no such setting. -/
  | unknown
  /-- The setting to add has a value already. -/
  | present
  /-- The setting to delete has no value. -/
  | absent
  /-- The setting to delete has another value. -/
  | different (held given : Datum)

def ChangeProblem.message (text : String) : ChangeProblem → String
  | .unreadable => "the change cannot be read"
  | .severalValues => s!"Ambiguous value for argument '{text}'"
  | .unknown => s!"Could not override '{text}'."
  | .present => s!"Could not append to config. An item is already at '{text}'."
  | .absent => s!"Could not delete from config. '{text}' does not exist."
  | .different held given =>
      s!"Could not delete from config. The value of '{text}' is {held.plain} and not " ++
        s!"{given.plain}."

/-- The fault of a change that cannot be made. -/
def changeFault (problem : ChangeProblem) (text : String) : Fault :=
  .library { kind := "HydraException", text := problem.message text, isTold := false }

/-- A piece of a spelled value. -/
inductive Token where
  | listOpen
  | listClose
  | mapOpen
  | mapClose
  | comma
  /-- A colon with the blanks around it. -/
  | colon (text : String)
  | blank (text : String)
  | quoted (text : String)
  /-- A word or a number: the value that it is by itself, and its text beside others. -/
  | word (value : Datum) (text : String)

/-- The blanks in a spelled value. -/
def isGap (c : Char) : Bool :=
  c = ' ' || c = '\t'

def dropGap (s : List Char) : List Char :=
  s.dropWhile isGap

/-- The digits after a first one, with single underscores among them, and the rest. -/
def digitsAfter : List Char → List Char × List Char
  | '_' :: c :: rest =>
      if c.isDigit then ('_' :: c :: (digitsAfter rest).1, (digitsAfter rest).2)
      else ([], '_' :: c :: rest)
  | c :: rest =>
      if c.isDigit then (c :: (digitsAfter rest).1, (digitsAfter rest).2) else ([], c :: rest)
  | [] => ([], [])

/-- The digits at the start of a text, and the rest. -/
def digits? : List Char → Option (List Char × List Char)
  | c :: rest =>
      if c.isDigit then some (c :: (digitsAfter rest).1, (digitsAfter rest).2) else none
  | [] => none

/-- The whole number without a sign at the start of a text, and the rest. A zero at its
    start is all of it. -/
def whole? : List Char → Option (List Char × List Char)
  | '0' :: rest => some (['0'], rest)
  | s => digits? s

/-- A point with digits after it at the start of a text, and the rest. -/
def fraction? : List Char → Option (List Char × List Char)
  | '.' :: rest => (digits? rest).map fun (digits, rest) => ('.' :: digits, rest)
  | _ => none

/-- A point at the start of a text, with the digits after it if there are some. -/
def openFraction (s : List Char) : List Char × List Char :=
  match fraction? s with
  | some found => found
  | none =>
      match s with
      | '.' :: rest => (['.'], rest)
      | rest => ([], rest)

/-- An exponent at the start of a text, if there is one. -/
def exponent (s : List Char) : List Char × List Char :=
  let found : Option (List Char × List Char) :=
    match s with
    | e :: sign :: rest =>
        if e ≠ 'e' && e ≠ 'E' then none
        else if sign = '+' || sign = '-' then
          (digits? rest).map fun (digits, rest) => (e :: sign :: digits, rest)
        else (digits? (sign :: rest)).map fun (digits, rest) => (e :: digits, rest)
    | _ => none
  found.getD ([], s)

/-- The words for numbers without digits, in any case. -/
def namesNumber (word : List Char) : Bool :=
  let word := String.ofList (word.map Char.toLower)
  word = "inf" || word = "nan"

def realOf (s : List Char) : Datum :=
  match Decimal.read? s with
  | some x => .real x
  | none => .text (String.ofList s)

def intOf (s : List Char) : Datum :=
  match Text.numeral? 10 s with
  | some n => .int n
  | none => .text (String.ofList s)

/-- The text of the number without a sign at the start of a text, whether it is whole, and
    the rest. -/
def number? (s : List Char) : Option (List Char × Bool × List Char) :=
  match whole? s with
  | some (whole, rest) =>
      let (fraction, rest) := openFraction rest
      let (exponent, rest) := exponent rest
      some (whole ++ fraction ++ exponent, fraction.isEmpty && exponent.isEmpty, rest)
  | none =>
      match fraction? s with
      | some (fraction, rest) =>
          let (exponent, rest) := exponent rest
          some (fraction ++ exponent, false, rest)
      | none =>
          if namesNumber (s.take 3) then some (s.take 3, false, s.drop 3) else none

/-- The number with an optional sign at the start of a text, and the rest. -/
def signedNumber? (s : List Char) : Option (Token × List Char) :=
  let (sign, body) :=
    match s with
    | '+' :: rest => (['+'], rest)
    | '-' :: rest => (['-'], rest)
    | rest => ([], rest)
  (number? body).map fun (text, isWhole, rest) =>
    let text := sign ++ text
    (.word (if isWhole then intOf text else realOf text) (String.ofList text), rest)

def startsName (c : Char) : Bool :=
  c.isAlpha || c = '_'

def continuesName (c : Char) : Bool :=
  c.isAlphanum || c = '_' || c = '-'

/-- The value of a name, some of which mean more than their text. -/
def nameValue (name : List Char) : Datum :=
  let plain := String.ofList (name.map Char.toLower)
  if plain = "true" then .bool true
  else if plain = "false" then .bool false
  else if plain = "null" then .null
  else if namesNumber name then realOf name
  else .text (String.ofList name)

/-- The characters that stand for themselves in a word. -/
def isPlainMark (c : Char) : Bool :=
  "/-\\+.$%*@?|".toList.contains c

/-- The characters that stand for themselves after a backslash. -/
def isEscapable (c : Char) : Bool :=
  "\\()[]\x7b\x7d:=, \t".toList.contains c

/-- The text up to the quote that closes it, and the rest. Backslashes before a quote count
    half, and an odd one keeps the text open. -/
def quotedText (quote : Char) : (slashes : Nat) → List Char → Option (List Char × List Char)
  | _, [] => none
  | slashes, c :: rest =>
      if c = '\\' then quotedText quote (slashes + 1) rest
      else if c = quote then
        if slashes % 2 = 0 then some (List.replicate (slashes / 2) '\\', rest)
        else
          (quotedText quote 0 rest).map fun (text, rest) =>
            (List.replicate (slashes / 2) '\\' ++ quote :: text, rest)
      else
        (quotedText quote 0 rest).map fun (text, rest) =>
          (List.replicate slashes '\\' ++ c :: text, rest)

/-- A word of one character at the start of a text. -/
def mark (c : Char) (rest : List Char) : Token × List Char :=
  (.word (.text (String.ofList [c])) (String.ofList [c]), rest)

/-- The token at the start of a text that starts with no blank, and the rest. -/
def solidToken? : List Char → Option (Token × List Char)
  | [] => none
  | c :: rest =>
      if c = '[' then some (.listOpen, dropGap rest)
      else if c = '\x7b' then some (.mapOpen, dropGap rest)
      else if c = '\x27' || c = '\x22' then
        (quotedText c 0 rest).map fun (text, rest) => (.quoted (String.ofList text), rest)
      else if startsName c then
        let name := c :: rest.takeWhile continuesName
        some (.word (nameValue name) (String.ofList name), rest.dropWhile continuesName)
      else
        match signedNumber? (c :: rest) with
        | some found => some found
        | none =>
            match c, rest with
            | '\\', next :: rest =>
                some (if isEscapable next then mark next rest else mark '\\' (next :: rest))
            | '$', '\x7b' :: _ => none
            | c, rest => if isPlainMark c then some (mark c rest) else none

/-- The token at the start of a text, and the rest. The blanks before a closing bracket and
    around a comma or a colon belong to it. -/
def token? (s : List Char) : Option (Token × List Char) :=
  let gap := s.takeWhile isGap
  match dropGap s with
  | ',' :: rest => some (.comma, dropGap rest)
  | ':' :: rest =>
      some (.colon (String.ofList (gap ++ ':' :: rest.takeWhile isGap)), dropGap rest)
  | ']' :: rest => some (.listClose, rest)
  | '\x7d' :: rest => some (.mapClose, rest)
  | rest => if gap.isEmpty then solidToken? rest else some (.blank (String.ofList gap), rest)

/-- At most `fuel` tokens that make up a text. -/
def tokensWithin? : (fuel : Nat) → List Char → Option (List Token)
  | _, [] => some []
  | 0, _ => none
  | fuel + 1, s => do
      let (token, rest) ← token? s
      return token :: (← tokensWithin? fuel rest)

def tokens? (s : List Char) : Option (List Token) :=
  tokensWithin? s.length s

namespace Token

def isBlank : Token → Bool
  | .blank _ => true
  | _ => false

/-- Whether the token can be a part of a word; a colon can in values, not in keys. -/
def isPart (inKey : Bool) : Token → Bool
  | .word _ _ => true
  | .blank _ => true
  | .colon _ => !inKey
  | _ => false

def text : Token → String
  | .word _ text => text
  | .blank text => text
  | .colon text => text
  | .quoted text => text
  | _ => ""

def value : Token → Datum
  | .word value _ => value
  | token => .text token.text

end Token

/-- The value of the parts of a word. The blanks around it do not count, and it must have
    other parts. -/
def wordOf? (parts : List Token) : Option Datum :=
  let inner := (parts.dropWhile Token.isBlank).reverse.dropWhile Token.isBlank
  match inner.reverse with
  | [] => none
  | [part] => some part.value
  | parts => some (.text (String.join (parts.map Token.text)))

def word? (inKey : Bool) (tokens : List Token) : Option (Datum × List Token) :=
  match tokens with
  | .quoted text :: rest => if inKey then none else some (.text text, rest)
  | _ =>
      (wordOf? (tokens.takeWhile (Token.isPart inKey))).map fun value =>
        (value, tokens.dropWhile (Token.isPart inKey))

mutual

def value? : (fuel : Nat) → List Token → Option (Datum × List Token)
  | 0, _ => none
  | _ + 1, .listOpen :: .listClose :: rest => some (.list [], rest)
  | fuel + 1, .listOpen :: rest => do
      let (items, rest) ← items? fuel rest
      return (.list items, rest)
  | _ + 1, .mapOpen :: .mapClose :: rest => some (.map [], rest)
  | fuel + 1, .mapOpen :: rest => do
      let (entries, rest) ← entries? fuel [] rest
      return (.map entries, rest)
  | _ + 1, tokens => word? false tokens

/-- The values up to the bracket that closes a list, and the rest. -/
def items? : (fuel : Nat) → List Token → Option (List Datum × List Token)
  | 0, _ => none
  | fuel + 1, tokens => do
      let (item, rest) ← value? fuel tokens
      match rest with
      | .comma :: rest => do
          let (items, rest) ← items? fuel rest
          return (item :: items, rest)
      | .listClose :: rest => return ([item], rest)
      | _ => none

/-- The entries up to the brace that closes a mapping, after those found, and the rest. -/
def entries? : (fuel : Nat) → List (Datum × Datum) → List Token →
    Option (List (Datum × Datum) × List Token)
  | 0, _, _ => none
  | fuel + 1, found, tokens => do
      let (key, rest) ← word? true tokens
      match rest with
      | .colon _ :: rest => do
          let (value, rest) ← value? fuel rest
          let found := Datum.putKey key value found
          match rest with
          | .comma :: rest => entries? fuel found rest
          | .mapClose :: rest => return (found, rest)
          | _ => none
      | _ => none

end

/-- The values between commas that make up tokens. -/
def values? : (fuel : Nat) → List Token → Option (List Datum)
  | 0, _ => none
  | fuel + 1, tokens => do
      let (value, rest) ← value? (tokens.length + 1) tokens
      match rest with
      | [] => return [value]
      | .comma :: rest => return value :: (← values? fuel rest)
      | _ => none

/-- The value that a text spells. Nothing at all is an empty text. -/
def readValue (s : List Char) : Except ChangeProblem Datum :=
  match dropGap s with
  | [] => .ok (.text "")
  | s =>
      match (tokens? s).bind fun tokens => values? (tokens.length + 1) tokens with
      | some [value] => .ok value
      | some _ => .error .severalValues
      | none => .error .unreadable

end CallProfile.StandIn.Config
