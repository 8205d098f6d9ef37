import CallProfile.Datum.Number
import CallProfile.Decimal.Read
import CallProfile.StandIn.Yaml.Node

/-! # Values of YAML documents, stood in for

A plain scalar without a tag means what it looks like: null, a truth value, a number, or
else a text. Equal keys in one mapping are refused; entries merged into a mapping give
way to its own.
-/

namespace CallProfile.StandIn.Yaml

/-- What a tag asks for. -/
inductive Wanted where
  /-- What the node looks like. -/
  | anything
  | text
  | int
  | real
  | bool
  | null
  | list
  | map
  deriving Repr, DecidableEq

/-- The standard tags. -/
def standardTags : List (String × Wanted) :=
  [("str", .text), ("int", .int), ("float", .real), ("bool", .bool), ("null", .null),
    ("seq", .list), ("map", .map)]

/-- What a tag asks for; a tag that is not known has no value. -/
def wanted (t : Option Tag) : Except Defect Wanted :=
  let standard (name : String) : Except Defect Wanted :=
    match standardTags.lookup name with
    | some w => .ok w
    | none => .error .value
  match t with
  | none => .ok .anything
  | some { family := some "", suffix } => standard suffix
  | some { family := some _, .. } => .error .order
  | some { family := none, suffix } =>
      if suffix = "" then .ok .text
      else if suffix.startsWith "tag:yaml.org,2002:" then standard (suffix.drop 18).toString
      else .error .value

def boolOf? (s : String) : Option Bool :=
  if ["true", "True", "TRUE"].contains s then some true
  else if ["false", "False", "FALSE"].contains s then some false
  else none

def looksNull (s : String) : Bool :=
  ["", "~", "null", "Null", "NULL"].contains s

/-- Split the sign from a text. -/
def splitSign : List Char → Bool × List Char
  | '-' :: s => (true, s)
  | '+' :: s => (false, s)
  | s => (false, s)

/-- Whether a character is a digit or an underscore. -/
def isLooseDigit (c : Char) : Bool :=
  c.isDigit || c = '_'

/-- The base of a whole number and its digits. -/
def baseAndDigits : List Char → Nat × List Char
  | '0' :: 'b' :: s => (2, s)
  | '0' :: 'x' :: s => (16, s)
  | '0' :: 'o' :: s => (8, s)
  | s => (10, s)

/-- The whole number that a plain scalar looks like. Underscores do not count, and a zero
    in front makes no other base. -/
def intOf? (s : List Char) : Option Int :=
  let (negative, body) := splitSign s
  let (base, digits) := baseAndDigits body
  if digits.isEmpty || !(s.head?.any fun c => c.isDigit || c = '-' || c = '+') then none
  else
    (Text.numeral? base (digits.filter (· ≠ '_'))).bind fun n =>
      if digits.all fun c => c = '_' || (Text.digitBelow? base c).isSome then
        some (if negative then -n else n)
      else none

/-- Whether a text is an exponent: nothing, or a mark and digits. The sign may be
    required. -/
def isExponent (needsSign : Bool) : List Char → Bool
  | [] => true
  | e :: s =>
      (e = 'e' || e = 'E') &&
        match s with
        | '-' :: digits => !digits.isEmpty && digits.all Char.isDigit
        | '+' :: digits => !digits.isEmpty && digits.all Char.isDigit
        | digits => !needsSign && !digits.isEmpty && digits.all Char.isDigit

/-- Whether an unsigned text looks like a number with a point or an exponent. -/
def looksReal (s : List Char) : Bool :=
  let digits := s.takeWhile isLooseDigit
  let rest := s.dropWhile isLooseDigit
  match rest with
  | '.' :: rest =>
      let tail := rest.dropWhile isLooseDigit
      if digits.isEmpty then
        !(rest.takeWhile isLooseDigit).isEmpty && isExponent true tail
      else (digits.head?.any Char.isDigit) && isExponent false tail
  | rest => (digits.head?.any Char.isDigit) && !rest.isEmpty && isExponent false rest

/-- The number with a point or an exponent that a plain scalar looks like. -/
def realOf? (s : List Char) : Option Float :=
  let (negative, body) := splitSign s
  if [".inf", ".Inf", ".INF"].contains (String.ofList body) then some (Decimal.infinity negative)
  else if [".nan", ".NaN", ".NAN"].contains (String.ofList s) then some Decimal.notANumber
  else if looksReal body then Decimal.read? (s.filter (· ≠ '_'))
  else none

/-- The date that a plain scalar looks like. Times of day are not read. -/
def dateOf? (s : String) : Option Datum :=
  match s.splitOn "-" with
  | [year, month, day] => do
      if year.length ≠ 4 || month.length ≠ 2 || day.length ≠ 2 then none
      let shown := s!"datetime.date({← year.toNat?}, {← month.toNat?}, {← day.toNat?})"
      return .other shown s true true none
  | _ => none

/-- The value of a plain scalar without a tag. -/
def plainValue (s : String) : Datum :=
  if looksNull s then .null
  else
    match boolOf? s, realOf? s.toList, intOf? s.toList, dateOf? s with
    | some b, _, _, _ => .bool b
    | _, some x, _, _ => .real x
    | _, _, some n, _ => .int n
    | _, _, _, some date => date
    | _, _, _, none => .text s

def scalarValue (t : Option Tag) (s : String) (isPlain : Bool) : Except Defect Datum := do
  match ← wanted t with
  | .anything => return if isPlain then plainValue s else .text s
  | .text => return .text s
  | .null => return .null
  | .bool =>
      match boolOf? s with
      | some b => return .bool b
      | none => throw .value
  | .int =>
      match intOf? s.toList with
      | some n => return .int n
      | none => throw .value
  | .real =>
      match realOf? s.toList, intOf? s.toList with
      | some x, _ => return .real x
      | none, some n => return .real ((Decimal.nearestInt? n).getD (Decimal.infinity (n < 0)))
      | none, none => throw .value
  | _ => throw .value

/-- A value as a key: a list becomes a tuple. -/
def keyOf : Datum → Except Defect Datum
  | .list items => .ok (.tuple items)
  | .map _ => .error .value
  | d => .ok d

/-- Whether a node is the mark that merges other mappings into one. -/
def isMerge : Node → Bool
  | .scalar none "<<" true => true
  | _ => false

/-- Add an entry whose key must be new. -/
def addNew (entries : List (Datum × Datum)) (k v : Datum) :
    Except Defect (List (Datum × Datum)) :=
  if entries.any fun e => Datum.sameKey e.1 k then .error .duplicateKey
  else .ok (entries ++ [(k, v)])

/-- Add entries, each in the place of an older one with its key. -/
def addAll (entries new : List (Datum × Datum)) : List (Datum × Datum) :=
  new.foldl (fun entries e => Datum.putKey e.1 e.2 entries) entries

/-- The entries that a value merges into a mapping; of several mappings the first one
    wins. -/
def mergedEntries : Datum → Except Defect (List (Datum × Datum))
  | .map entries => .ok entries
  | .list items => do
      let maps ← items.mapM fun d =>
        match d with
        | .map entries => pure entries
        | _ => throw Defect.value
      return maps.reverse.foldl addAll []
  | _ => .error .value

mutual

def valueOf : Node → Except Defect Datum
  | .scalar t s isPlain => scalarValue t s isPlain
  | .list t items => do
      match ← wanted t with
      | .anything | .list | .text => return .list (← valuesOf items)
      | _ => throw .value
  | .map t entries => do
      match ← wanted t with
      | .anything | .map | .text => do
          let isNew := !entries.any fun e => isMerge e.1
          let (merged, own) ← entriesOf isNew none [] entries
          return .map (addAll (merged.getD []) own)
      | _ => throw .value

def valuesOf : List Node → Except Defect (List Datum)
  | [] => .ok []
  | n :: nodes => do
      let d ← valueOf n
      return d :: (← valuesOf nodes)

/-- The entries merged into a mapping, if any, and its own, whose keys may have to be
    new. -/
def entriesOf (isNew : Bool) (merged : Option (List (Datum × Datum)))
    (own : List (Datum × Datum)) : List (Node × Node) →
    Except Defect (Option (List (Datum × Datum)) × List (Datum × Datum))
  | [] => .ok (merged, own)
  | (k, v) :: entries => do
      if isMerge k then
        if merged.isSome then throw .duplicateKey
        let more ← mergedEntries (← valueOf v)
        entriesOf isNew (some more) own entries
      else
        let key ← keyOf (← valueOf k)
        let value ← valueOf v
        let own ← if isNew then addNew own key value else pure (Datum.putKey key value own)
        entriesOf isNew merged own entries

end

/-- Whether a character may stand in a document. -/
def isAllowed (c : Char) : Bool :=
  let n := c.toNat
  n = 9 || n = 10 || n = 13 || (0x20 ≤ n && n ≤ 0x7E) || n = 0x85 || (0xA0 ≤ n && n ≤ 0xFFFD) ||
    0x10000 ≤ n

/-- Read a document. Nothing at all is null. -/
def read (text : String) : Except Defect Datum := do
  let chars :=
    match text.toList with
    | '\ufeff' :: rest => rest
    | chars => chars
  if !chars.all isAllowed then throw .character
  match ← nodeOf (← tokens chars) with
  | none => return .null
  | some n => valueOf n

end CallProfile.StandIn.Yaml
