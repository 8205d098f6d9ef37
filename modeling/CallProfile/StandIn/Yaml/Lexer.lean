import CallProfile.StandIn.Yaml.Scalar

/-! # From text to tokens

A mapping shows itself only at the colon behind its first key. So every token that may be
a key is remembered, and the marks of the key and of its block are put before it when the
colon comes. Outside brackets a key must stand on one line with its colon.

Blocks are told by indentation: a key or a dash further to the right than the open block
starts a new one, and anything further to the left ends those that it leaves.
-/

namespace CallProfile.StandIn.Yaml

/-- A tag: the name of its family between marks, if any, and the rest. -/
structure Tag where
  family : Option String
  suffix : String
  deriving Repr, DecidableEq

inductive Token where
  | directive
  | documentStart
  | documentEnd
  | blockListStart
  | blockMapStart
  | blockEnd
  | listStart
  | listEnd
  | mapStart
  | mapEnd
  /-- The dash before an item of a block. -/
  | item
  | comma
  | key
  | value
  | alias (name : String)
  | anchor (name : String)
  | tag (t : Tag)
  /-- A scalar; a plain one has no quotes and may mean a number. -/
  | scalar (text : String) (isPlain : Bool)
  | streamEnd
  deriving Repr, DecidableEq

/-- A token that may turn out to be a key. -/
structure MaybeKey where
  /-- The number of tokens before it. -/
  number : Nat
  /-- Whether nothing else can stand where it is. -/
  isRequired : Bool
  index : Nat
  line : Nat
  column : Nat
  deriving Repr

/-- Where the reading of tokens stands. -/
structure Lexer where
  place : Place
  /-- The tokens so far, the latest first. -/
  tokens : List Token
  /-- The indentation of the innermost block, and of those around it. -/
  indent : Int
  outer : List Int
  /-- For the innermost brackets and each around them: the token that may be a key. -/
  keys : List (Option MaybeKey)
  /-- Whether the next token may be a key. -/
  allowsKey : Bool
  deriving Repr

namespace Lexer

def start (s : List Char) : Lexer where
  place := Place.start s
  tokens := []
  indent := -1
  outer := []
  keys := [none]
  allowsKey := true

/-- Whether the place is inside brackets. -/
def inFlow (l : Lexer) : Bool :=
  1 < l.keys.length

def push (l : Lexer) (t : Token) : Lexer :=
  { l with tokens := t :: l.tokens }

/-- Put tokens behind the first `number` ones. -/
def insert (l : Lexer) (number : Nat) (new : List Token) : Lexer :=
  let later := l.tokens.length - number
  { l with tokens := l.tokens.take later ++ new.reverse ++ l.tokens.drop later }

/-- Drop a key that was only possible. A required one must have had its colon. -/
def dropKey (l : Lexer) : Except Defect Lexer :=
  match l.keys with
  | some key :: keys =>
      if key.isRequired then .error .token else .ok { l with keys := none :: keys }
  | _ => .ok l

/-- Whether a key is too far back to have its colon here. -/
def isStale (p : Place) (key : MaybeKey) : Bool :=
  key.line ≠ p.line || key.index + 1024 < p.index

def dropStaleKeys (l : Lexer) : Except Defect Lexer := do
  let keys ← l.keys.mapM fun key? =>
    match key? with
    | none => pure none
    | some key =>
        if isStale l.place key then (if key.isRequired then throw Defect.token else pure none)
        else pure (some key)
  return { l with keys }

/-- Remember that the next token may be a key. -/
def saveKey (l : Lexer) : Except Defect Lexer := do
  let isRequired := !l.inFlow && l.indent = l.place.column
  if l.allowsKey then
    let l ← l.dropKey
    let key : MaybeKey :=
      { number := l.tokens.length, isRequired, index := l.place.index, line := l.place.line
        column := l.place.column }
    return { l with keys := some key :: l.keys.drop 1 }
  else return l

/-- End the blocks further to the right than a column. -/
def unwind (column : Int) : List Int → Lexer → Lexer
  | outer, l =>
      if l.inFlow || l.indent ≤ column then l
      else
        match outer with
        | [] => { l with tokens := .blockEnd :: l.tokens, indent := -1, outer := [] }
        | indent :: rest =>
            unwind column rest
              { l with tokens := .blockEnd :: l.tokens, indent, outer := rest }

/-- Open a block at a column if it is further to the right than the open one; its mark
    goes behind the first `number` tokens. -/
def openBlock (l : Lexer) (column : Nat) (number : Nat) (mark : Token) : Lexer :=
  if l.indent < column then
    { l.insert number [mark] with indent := column, outer := l.indent :: l.outer }
  else l

/-- Skip spaces, comments and line breaks. A tab is a space only where no key can be. -/
def skipGaps : Nat → Lexer → Lexer
  | 0, l => l
  | fuel + 1, l =>
      match l.place.rest with
      | ' ' :: _ => skipGaps fuel { l with place := l.place.next }
      | '\t' :: _ =>
          if l.inFlow || !l.allowsKey then skipGaps fuel { l with place := l.place.next } else l
      | '#' :: _ => skipGaps fuel { l with place := l.place.skipWhile (· ≠ '\n') }
      | '\n' :: _ =>
          skipGaps fuel { l with place := l.place.next, allowsKey := l.allowsKey || !l.inFlow }
      | _ => l

/-- Add a token of `width` characters. -/
def mark (l : Lexer) (t : Token) (width : Nat) : Lexer :=
  { l.push t with place := l.place.skip width }

/-- The start or the end of a document. -/
def documentMark (l : Lexer) (t : Token) : Except Defect Lexer := do
  let l ← (unwind (-1) l.outer l).dropKey
  return { l.mark t 3 with allowsKey := false }

/-- A directive, which is skipped with the rest of its line. -/
def directive (l : Lexer) : Except Defect Lexer := do
  let l ← (unwind (-1) l.outer l).dropKey
  return { l.push .directive with place := l.place.skipWhile (· ≠ '\n'), allowsKey := false }

def openFlow (l : Lexer) (t : Token) : Except Defect Lexer := do
  let l ← l.saveKey
  return { l.mark t 1 with keys := none :: l.keys, allowsKey := true }

def closeFlow (l : Lexer) (t : Token) : Except Defect Lexer := do
  let l ← l.dropKey
  return { l.mark t 1 with
    keys := if l.inFlow then l.keys.drop 1 else l.keys, allowsKey := false }

def comma (l : Lexer) : Except Defect Lexer := do
  let l ← l.dropKey
  return { l.mark .comma 1 with allowsKey := true }

/-- A dash before an item. -/
def item (l : Lexer) : Except Defect Lexer := do
  let l ←
    if l.inFlow then pure l
    else if l.allowsKey then
      pure (l.openBlock l.place.column l.tokens.length .blockListStart)
    else throw Defect.token
  let l ← l.dropKey
  return { l.mark .item 1 with allowsKey := true }

/-- A question mark before a key. -/
def key (l : Lexer) : Except Defect Lexer := do
  let l ←
    if l.inFlow then pure l
    else if l.allowsKey then
      pure (l.openBlock l.place.column l.tokens.length .blockMapStart)
    else throw Defect.token
  let l ← l.dropKey
  return { l.mark .key 1 with allowsKey := !l.inFlow }

/-- A colon behind a key, which may be one that was only possible. -/
def value (l : Lexer) : Except Defect Lexer := do
  match l.keys with
  | some key :: keys =>
      let l := { l.insert key.number [.key] with keys := none :: keys }
      let l := if l.inFlow then l else l.openBlock key.column key.number .blockMapStart
      return { l.mark .value 1 with allowsKey := false }
  | _ =>
      let l ←
        if l.inFlow then pure l
        else if l.allowsKey then
          pure (l.openBlock l.place.column l.tokens.length .blockMapStart)
        else throw Defect.token
      let l ← l.dropKey
      return { l.mark .value 1 with allowsKey := !l.inFlow }

def isNameChar (c : Char) : Bool :=
  c.isAlphanum || c = '-' || c = '_'

/-- Whether a name may end here. -/
def endsName : List Char → Bool
  | [] => true
  | c :: _ => isGap c || "?:,]\x7d%@`".toList.contains c

/-- An anchor or an alias. -/
def named (l : Lexer) (token : String → Token) : Except Defect Lexer := do
  let l ← l.saveKey
  let p := l.place.next
  let name := p.ahead isNameChar
  let q := p.skip name.length
  if name.isEmpty || !endsName q.rest then throw .token
  return { l.push (token (String.ofList name)) with place := q, allowsKey := false }

def isTagChar (c : Char) : Bool :=
  c.isAlphanum || "-;/?:@&=+$,_.!~*'()[]%".toList.contains c

/-- The tag that a text spells behind its first mark. -/
def tagOf (text : List Char) : Tag :=
  match text.span (· ≠ '!') with
  | (family, '!' :: suffix) =>
      { family := some (String.ofList family), suffix := String.ofList suffix }
  | (suffix, _) => { family := none, suffix := String.ofList suffix }

def tag (l : Lexer) : Except Defect Lexer := do
  let l ← l.saveKey
  let p := l.place.next
  let (t, q) ←
    match p.rest with
    | '<' :: _ => do
        let text := p.next.ahead isTagChar
        let q := p.next.skip text.length
        match q.rest with
        | '>' :: _ => pure (Tag.mk none (String.ofList text), q.next)
        | _ => throw Defect.token
    | _ =>
        let text := p.ahead fun c => isTagChar c && !(l.inFlow && isFlowMark c)
        pure (tagOf text, p.skip text.length)
  let endsHere := startsWithGap q.rest || (l.inFlow && q.rest.head?.any isFlowMark)
  if !endsHere then throw .token
  return { l.push (.tag t) with place := q, allowsKey := false }

def quotedScalar (l : Lexer) : Except Defect Lexer := do
  let l ← l.saveKey
  let (text, place) ← quoted l.place
  return { l.push (.scalar text false) with place, allowsKey := false }

def blockScalar (l : Lexer) : Except Defect Lexer := do
  let l ← l.dropKey
  let (text, place) ← block l.indent l.place
  return { l.push (.scalar text false) with place, allowsKey := true }

def plainScalar (l : Lexer) : Except Defect Lexer := do
  let l ← l.saveKey
  let (text, broken, place) ← plain l.inFlow (l.indent + 1) l.place
  return { l.push (.scalar text true) with place, allowsKey := broken }

/-- Whether a plain scalar can start with a character before the given rest. -/
def startsPlain (inFlow : Bool) (c : Char) (rest : List Char) : Bool :=
  if "-?:".toList.contains c then
    !startsWithGap rest && (c = '-' || !inFlow)
  else !isGap c && !",[]\x7b\x7d#&*!|>'\x22%@`".toList.contains c

def finish (l : Lexer) : Except Defect (List Token) := do
  let l ← (unwind (-1) l.outer l).dropKey
  return (l.push .streamEnd).tokens.reverse

/-- Read the token that starts with a character. -/
def step (l : Lexer) (c : Char) (rest : List Char) : Except Defect Lexer :=
  let endsHere := startsWithGap rest
  if l.place.column = 0 && c = '%' then l.directive
  else if isDocumentMark l.place then
    l.documentMark (if c = '-' then .documentStart else .documentEnd)
  else
    match c with
    | '[' => l.openFlow .listStart
    | '{' => l.openFlow .mapStart
    | ']' => l.closeFlow .listEnd
    | '}' => l.closeFlow .mapEnd
    | ',' => l.comma
    | '*' => l.named .alias
    | '&' => l.named .anchor
    | '!' => l.tag
    | '\x27' => l.quotedScalar
    | '\x22' => l.quotedScalar
    | _ =>
        if c = '-' && endsHere then l.item
        else if c = '?' && (l.inFlow || endsHere) then l.key
        else if c = ':' && (l.inFlow || endsHere) then l.value
        else if (c = '|' || c = '>') && !l.inFlow then l.blockScalar
        else if startsPlain l.inFlow c rest then l.plainScalar
        else .error .token

/-- Read all tokens. Every step takes a character. -/
def run : Nat → Lexer → Except Defect (List Token)
  | 0, _ => .error .token
  | fuel + 1, l => do
      let l ← (skipGaps (l.place.rest.length + 1) l).dropStaleKeys
      let l := unwind l.place.column l.outer l
      match l.place.rest with
      | [] => l.finish
      | c :: rest => run fuel (← l.step c rest)

end Lexer

def tokens (s : List Char) : Except Defect (List Token) :=
  Lexer.run (s.length + 1) (Lexer.start s)

end CallProfile.StandIn.Yaml
