import CallProfile.Text.Hex

/-! # Scalars of YAML documents

Scalars may go over several lines. The break between two lines of text is a space, and
each empty line between them is a line break; only the literal style keeps all breaks.
-/

namespace CallProfile.StandIn.Yaml

inductive Defect where
  /-- Characters that form no token. -/
  | token
  /-- Tokens in an order that no document has. -/
  | order
  /-- An alias for which no anchor came before. -/
  | alias
  /-- A second document. -/
  | secondDocument
  /-- A mapping with two equal keys. -/
  | duplicateKey
  /-- A value that does not fit its tag. -/
  | value
  /-- A character that no document holds. -/
  | character
  deriving Repr, DecidableEq

/-- A place in a text: what follows it, and where it is. -/
structure Place where
  rest : List Char
  index : Nat
  line : Nat
  column : Nat
  deriving Repr

namespace Place

def start (s : List Char) : Place where
  rest := s
  index := 0
  line := 0
  column := 0

def next (p : Place) : Place :=
  match p.rest with
  | [] => p
  | '\n' :: rest => { rest, index := p.index + 1, line := p.line + 1, column := 0 }
  | _ :: rest => { p with rest, index := p.index + 1, column := p.column + 1 }

def skip : Nat → Place → Place
  | 0, p => p
  | n + 1, p => skip n p.next

/-- The characters ahead that all satisfy a condition. -/
def ahead (p : Place) (holds : Char → Bool) : List Char :=
  p.rest.takeWhile holds

/-- The place behind the characters that satisfy a condition. -/
def skipWhile (p : Place) (holds : Char → Bool) : Place :=
  p.skip (p.ahead holds).length

def isEnd (p : Place) : Bool :=
  p.rest.isEmpty

end Place

def isSpace (c : Char) : Bool :=
  c = ' ' || c = '\t'

/-- Whether a character ends a word: a space, a tab or a line break. -/
def isGap (c : Char) : Bool :=
  isSpace c || c = '\n'

/-- Whether a text is at its end or at a gap. -/
def startsWithGap : List Char → Bool
  | [] => true
  | c :: _ => isGap c

/-- Whether a character is a mark inside brackets. -/
def isFlowMark (c : Char) : Bool :=
  c = ',' || c = '[' || c = ']' || c = '{' || c = '}'

/-- Whether a document starts or ends here. -/
def isDocumentMark (p : Place) : Bool :=
  p.column = 0 &&
    match p.rest with
    | '-' :: '-' :: '-' :: rest => startsWithGap rest
    | '.' :: '.' :: '.' :: rest => startsWithGap rest
    | _ => false

/-- Line breaks as they count in a folded text: one is a space, of several the first does
    not count. -/
def foldBreaks : Nat → List Char
  | 0 => []
  | 1 => [' ']
  | n + 2 => List.replicate (n + 1) '\n'

/-- Count line breaks from a place on, with the spaces around them, up to a line with
    text. In a plain scalar no tab may stand below its indentation. -/
def emptyLines (indent : Option Int) : Nat → Nat → Place → Except Defect (Nat × Place)
  | 0, breaks, p => .ok (breaks, p)
  | fuel + 1, breaks, p =>
      if isDocumentMark p then .ok (breaks, p)
      else
        match p.rest with
        | '\n' :: _ => emptyLines indent fuel (breaks + 1) p.next
        | ' ' :: _ => emptyLines indent fuel breaks p.next
        | '\t' :: _ =>
            match indent with
            | none => emptyLines indent fuel breaks p.next
            | some indent =>
                if breaks ≠ 0 && (p.column : Int) < indent then .error .token
                else emptyLines (some indent) fuel breaks p.next
        | _ => .ok (breaks, p)

/-- The space between two parts of a scalar, and whether it holds a line break. -/
def gap (indent : Option Int) (p : Place) : Except Defect (List Char × Bool × Place) := do
  let spaces := p.ahead isSpace
  let behind := p.skip spaces.length
  match behind.rest with
  | '\n' :: _ => do
      let (breaks, q) ← emptyLines indent (p.rest.length + 1) 0 behind
      return (foldBreaks breaks, true, q)
  | _ => return (spaces, false, behind)

/-- The part of a plain scalar up to the next gap or mark. -/
def plainPart (inFlow : Bool) : List Char → List Char
  | [] => []
  | c :: rest =>
      if isGap c then []
      else if c = ':' && (startsWithGap rest || (inFlow && rest.head?.any isFlowMark)) then []
      else if inFlow && isFlowMark c then []
      else c :: plainPart inFlow rest

/-- Read the parts of a plain scalar, the first one behind `space`. Also tells whether a
    line break came after the last part. -/
def plainFrom (inFlow : Bool) (indent : Int) : Nat → List Char → Bool → Place →
    Except Defect (List Char × Bool × Place)
  | 0, _, broken, p => .ok ([], broken, p)
  | fuel + 1, space, broken, p => do
      let part := plainPart inFlow p.rest
      if p.rest.head? = some '#' || part.isEmpty then return ([], broken, p)
      let (nextSpace, broken, q) ← gap (some indent) (p.skip part.length)
      if nextSpace.isEmpty || isDocumentMark q || (!inFlow && (q.column : Int) < indent) then
        return (space ++ part, broken, q)
      else
        let (more, broken, r) ← plainFrom inFlow indent fuel nextSpace broken q
        return (space ++ part ++ more, broken, r)

def plain (inFlow : Bool) (indent : Int) (p : Place) :
    Except Defect (String × Bool × Place) := do
  let (text, broken, q) ← plainFrom inFlow indent (p.rest.length + 1) [] false p
  return (String.ofList text, broken, q)

/-- The gap inside quotes. The text must not end there. -/
def quotedGap (p : Place) : Except Defect (List Char × Place) := do
  let (space, broken, q) ← gap none p
  if q.isEnd || (broken && isDocumentMark q) then throw .token
  return (space, q)

/-- Read the rest of a text in single quotes, in which a quote is written twice. -/
def singleFrom : Nat → List Char → Place → Except Defect (List Char × Place)
  | 0, _, _ => .error .token
  | fuel + 1, before, p =>
      match p.rest with
      | [] => .error .token
      | '\x27' :: '\x27' :: _ => singleFrom fuel ('\x27' :: before) (p.skip 2)
      | '\x27' :: _ => .ok (before.reverse, p.next)
      | c :: _ =>
          if isGap c then do
            let (space, q) ← quotedGap p
            singleFrom fuel (space.reverse ++ before) q
          else singleFrom fuel (c :: before) p.next

/-- The characters that a backslash gives another meaning. -/
def escapes : List (Char × Char) :=
  [('0', '\x00'), ('a', '\x07'), ('b', '\x08'), ('t', '\t'), ('\t', '\t'), ('n', '\n'),
    ('v', '\x0b'), ('f', '\x0c'), ('r', '\r'), ('e', '\x1b'), (' ', ' '), ('\x22', '\x22'),
    ('/', '/'), ('\\', '\\'), ('N', '\u0085'), ('_', '\u00a0'), ('L', '\u2028'),
    ('P', '\u2029')]

/-- The number of hexadecimal digits that follow a letter behind a backslash. -/
def escapeLength? (c : Char) : Option Nat :=
  if c = 'x' then some 2 else if c = 'u' then some 4 else if c = 'U' then some 8 else none

/-- The character with the number that hexadecimal digits spell. -/
def charOfHex? (digits : List Char) : Option Char := do
  let n ← (← digits.mapM Text.hexDigit?).foldl (fun n d => some ((n.getD 0) * 16 + d)) (some 0)
  if h : n.isValidChar then some (Char.ofNatAux n h) else none

/-- Read a character behind a backslash. A line break there is left out with the spaces
    of the next line. -/
def escaped (p : Place) : Except Defect (List Char × Place) :=
  match p.rest with
  | [] => .error .token
  | '\n' :: _ => do
      let (breaks, q) ← emptyLines none (p.rest.length + 1) 0 p
      if q.isEnd || isDocumentMark q then throw .token
      return (List.replicate (breaks - 1) '\n', q)
  | c :: rest =>
      match escapes.lookup c with
      | some meant => .ok ([meant], p.next)
      | none =>
          match escapeLength? c with
          | none => .error .token
          | some n =>
              let digits := rest.take n
              if digits.length = n then
                match charOfHex? digits with
                | some meant => .ok ([meant], p.skip (n + 1))
                | none => .error .token
              else .error .token

def doubleFrom : Nat → List Char → Place → Except Defect (List Char × Place)
  | 0, _, _ => .error .token
  | fuel + 1, before, p =>
      match p.rest with
      | [] => .error .token
      | '\x22' :: _ => .ok (before.reverse, p.next)
      | '\\' :: _ => do
          let (meant, q) ← escaped p.next
          doubleFrom fuel (meant.reverse ++ before) q
      | c :: _ =>
          if isGap c then do
            let (space, q) ← quotedGap p
            doubleFrom fuel (space.reverse ++ before) q
          else doubleFrom fuel (c :: before) p.next

def quoted (p : Place) : Except Defect (String × Place) := do
  let fuel := p.rest.length + 1
  let (text, q) ←
    match p.rest with
    | '\x27' :: _ => singleFrom fuel [] p.next
    | _ => doubleFrom fuel [] p.next
  return (String.ofList text, q)

/-- What happens to the line breaks at the end of a block. -/
inductive Chomping where
  | strip
  | clip
  | keep
  deriving Repr, DecidableEq

/-- Read the marks behind the first one of a block scalar, in either order. -/
def blockMarks (p : Place) : Except Defect (Chomping × Option Nat × Place) :=
  let chomping? : Char → Option Chomping := fun c =>
    if c = '+' then some .keep else if c = '-' then some .strip else none
  let digit? : Char → Option Nat := fun c =>
    if c.isDigit then some (c.toNat - 48) else none
  let indent (n : Option Nat) (c : Chomping) (q : Place) :
      Except Defect (Chomping × Option Nat × Place) :=
    if n = some 0 then .error .token else .ok (c, n, q)
  match p.rest with
  | c :: rest =>
      match chomping? c, digit? c with
      | some chomping, _ =>
          match rest.head?.bind digit? with
          | some n => indent (some n) chomping (p.skip 2)
          | none => .ok (chomping, none, p.next)
      | none, some n =>
          match rest.head?.bind chomping? with
          | some chomping => indent (some n) chomping (p.skip 2)
          | none => indent (some n) .clip p.next
      | none, none => .ok (.clip, none, p)
  | [] => .ok (.clip, none, p)

/-- Go to the end of a line on which only a comment may stand. -/
def restOfLine (p : Place) : Except Defect Place :=
  let q := p.skipWhile isSpace
  let q := if q.rest.head? = some '#' then q.skipWhile (· ≠ '\n') else q
  match q.rest with
  | [] => .ok q
  | '\n' :: _ => .ok q.next
  | _ => .error .token

/-- Skip empty lines and count them, along with the widest indentation on the way. -/
def leadingLines : Nat → Nat → Nat → Place → Nat × Nat × Place
  | 0, breaks, widest, p => (breaks, widest, p)
  | fuel + 1, breaks, widest, p =>
      match p.rest with
      | ' ' :: _ => leadingLines fuel breaks (max widest (p.column + 1)) p.next
      | '\n' :: _ => leadingLines fuel (breaks + 1) widest p.next
      | _ => (breaks, widest, p)

/-- Skip empty lines, and at most `indent` spaces of the line behind them. -/
def blockBreaks (indent : Nat) : Nat → Nat → Place → Nat × Place
  | 0, breaks, p => (breaks, p)
  | fuel + 1, breaks, p =>
      match p.rest with
      | ' ' :: _ =>
          if p.column < indent then blockBreaks indent fuel breaks p.next else (breaks, p)
      | '\n' :: _ => blockBreaks indent fuel (breaks + 1) p.next
      | _ => (breaks, p)

/-- The text of a block with the line break behind its last line and the empty lines
    after that. -/
structure BlockText where
  text : List Char
  lastBreak : Bool
  emptyAfter : Nat
  place : Place

/-- Read the lines of a block. `breaks` empty lines came before. -/
def blockLines (folded : Bool) (indent : Nat) : Nat → Nat → Place → BlockText
  | 0, breaks, p => { text := [], lastBreak := false, emptyAfter := breaks, place := p }
  | fuel + 1, breaks, p =>
      if p.column = indent && !p.isEnd then
        let startsWithText := !(p.rest.head?.any isSpace)
        let line := p.ahead (· ≠ '\n')
        let q := p.skip line.length
        let hasBreak := !q.isEnd
        let (after, r) := blockBreaks indent (q.rest.length + 1) 0 q.next
        let shown := List.replicate breaks '\n' ++ line
        if r.column = indent && !r.isEnd then
          let joins := folded && hasBreak && startsWithText && !(r.rest.head?.any isSpace)
          let between := if joins then (if after = 0 then [' '] else []) else ['\n']
          let more := blockLines folded indent fuel after r
          { more with text := shown ++ between ++ more.text }
        else { text := shown, lastBreak := hasBreak, emptyAfter := after, place := r }
      else { text := [], lastBreak := false, emptyAfter := breaks, place := p }

/-- Read a block scalar, whose parent is indented by `parent`. -/
def block (parent : Int) (p : Place) : Except Defect (String × Place) := do
  let folded := p.rest.head? = some '>'
  let (chomping, increment, q) ← blockMarks p.next
  let q ← restOfLine q
  let least := (max (parent + 1) 1).toNat
  let fuel := q.rest.length + 1
  let (indent, breaks, start) :=
    match increment with
    | some n =>
        let indent := least + n - 1
        let (breaks, r) := blockBreaks indent fuel 0 q
        (indent, breaks, r)
    | none =>
        let (breaks, widest, r) := leadingLines fuel 0 0 q
        (max least widest, breaks, r)
  let b := blockLines folded indent fuel breaks start
  let last := if b.lastBreak then ['\n'] else []
  let after := List.replicate b.emptyAfter '\n'
  let ending :=
    match chomping with
    | .strip => []
    | .clip => last
    | .keep => last ++ after
  return (String.ofList (b.text ++ ending), b.place)

end CallProfile.StandIn.Yaml
