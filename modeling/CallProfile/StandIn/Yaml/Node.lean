import CallProfile.StandIn.Yaml.Lexer

/-! # From tokens to nodes

A document is one node: a scalar, a list or a mapping of nodes. A node may have an anchor,
which an alias further on repeats, and a tag. What is left out is an empty plain scalar.
-/

namespace CallProfile.StandIn.Yaml

/-- A node of a document. -/
inductive Node where
  | scalar (tag : Option Tag) (text : String) (isPlain : Bool)
  | list (tag : Option Tag) (items : List Node)
  | map (tag : Option Tag) (entries : List (Node × Node))
  deriving Inhabited

/-- Where the reading of nodes stands. -/
structure Stream where
  tokens : List Token
  /-- The nodes with anchors, the latest first. -/
  anchors : List (String × Node)

/-- What reads tokens. -/
abbrev Composer := StateT Stream (Except Defect)

namespace Composer

def peek : Composer Token := do
  return (← get).tokens.head?.getD .streamEnd

/-- Go behind the token ahead. -/
def advance : Composer Unit :=
  modify fun s => { s with tokens := s.tokens.drop 1 }

/-- Go behind a token, which must be ahead. -/
def expect (t : Token) : Composer Unit := do
  if (← peek) = t then advance else throw .order

/-- What nothing stands for. -/
def nothing : Node :=
  .scalar none "" true

/-- Read the anchor and the tag of a node, each at most once. -/
def properties : Nat → Option String → Option Tag → Composer (Option String × Option Tag)
  | 0, anchor, t => return (anchor, t)
  | fuel + 1, anchor, t => do
      match ← peek, anchor, t with
      | .anchor name, none, _ => do advance; properties fuel (some name) t
      | .tag new, _, none => do advance; properties fuel anchor (some new)
      | _, _, _ => return (anchor, t)

def aliased (name : String) : Composer Node := do
  match (← get).anchors.lookup name with
  | some n => return n
  | none => throw .alias

/-- Keep a node for the aliases of its anchor. -/
def keep (anchor : Option String) (n : Node) : Composer Node := do
  match anchor with
  | some name => do
      modify fun s => { s with anchors := (name, n) :: s.anchors }
      return n
  | none => return n

mutual

/-- Read a node. Blocks are refused inside brackets; in a mapping the items of a list
    need no indentation of their own. -/
def node (inBlock noIndent : Bool) : Nat → Composer Node
  | 0 => throw .order
  | fuel + 1 => do
      match ← peek with
      | .alias name => do advance; aliased name
      | _ => do
          let (anchor, t) ← properties 2 none none
          match ← peek with
          | .scalar text isPlain => do advance; keep anchor (.scalar t text isPlain)
          | .listStart => do
              advance
              keep anchor (.list t (← flowItems true fuel))
          | .mapStart => do
              advance
              keep anchor (.map t (← flowEntries true fuel))
          | .item =>
              if noIndent then do keep anchor (.list t (← looseItems fuel))
              else empty anchor t
          | .blockListStart =>
              if inBlock then do
                advance
                keep anchor (.list t (← blockItems fuel))
              else empty anchor t
          | .blockMapStart =>
              if inBlock then do
                advance
                keep anchor (.map t (← blockEntries fuel))
              else empty anchor t
          | _ => empty anchor t

/-- What stands for nothing behind an anchor or a tag; without them there must be
    something. -/
def empty (anchor : Option String) (t : Option Tag) : Composer Node :=
  if anchor.isSome || t.isSome then keep anchor (.scalar t "" true) else throw .order

/-- Read a node unless one of the given tokens is ahead. -/
def nodeUnless (stops : List Token) (inBlock noIndent : Bool) : Nat → Composer Node
  | 0 => throw .order
  | fuel + 1 => do
      if stops.contains (← peek) then return nothing else node inBlock noIndent fuel

def blockItems : Nat → Composer (List Node)
  | 0 => throw .order
  | fuel + 1 => do
      match ← peek with
      | .item => do
          advance
          let n ← nodeUnless [.item, .blockEnd] true false fuel
          return n :: (← blockItems fuel)
      | _ => do expect .blockEnd; return []

/-- Read items that have no indentation of their own. -/
def looseItems : Nat → Composer (List Node)
  | 0 => throw .order
  | fuel + 1 => do
      match ← peek with
      | .item => do
          advance
          let n ← nodeUnless [.item, .key, .value, .blockEnd] true false fuel
          return n :: (← looseItems fuel)
      | _ => return []

def blockEntries : Nat → Composer (List (Node × Node))
  | 0 => throw .order
  | fuel + 1 => do
      match ← peek with
      | .key => do
          advance
          let k ← nodeUnless [.key, .value, .blockEnd] true true fuel
          let v ←
            match ← peek with
            | .value => do
                advance
                nodeUnless [.key, .value, .blockEnd] true true fuel
            | _ => pure nothing
          return (k, v) :: (← blockEntries fuel)
      | _ => do expect .blockEnd; return []

/-- Read the value of a key inside brackets, if there is one. -/
def flowValue (close : Token) : Nat → Composer Node
  | 0 => throw .order
  | fuel + 1 => do
      match ← peek with
      | .value => do advance; nodeUnless [.comma, close] false false fuel
      | _ => return nothing

/-- Read the items between square brackets. An item may be a single entry. -/
def flowItems (isFirst : Bool) : Nat → Composer (List Node)
  | 0 => throw .order
  | fuel + 1 => do
      if (← peek) = .listEnd then do advance; return []
      else
        if !isFirst then expect .comma
        match ← peek with
        | .listEnd => do advance; return []
        | .key => do
            advance
            let k ← nodeUnless [.value, .comma, .listEnd] false false fuel
            let v ← flowValue .listEnd fuel
            return .map none [(k, v)] :: (← flowItems false fuel)
        | _ => do
            let n ← node false false fuel
            return n :: (← flowItems false fuel)

/-- Read the entries between braces. A key may have no value. -/
def flowEntries (isFirst : Bool) : Nat → Composer (List (Node × Node))
  | 0 => throw .order
  | fuel + 1 => do
      if (← peek) = .mapEnd then do advance; return []
      else
        if !isFirst then expect .comma
        match ← peek with
        | .mapEnd => do advance; return []
        | .key => do
            advance
            let k ← nodeUnless [.value, .comma, .mapEnd] false false fuel
            let v ← flowValue .mapEnd fuel
            return (k, v) :: (← flowEntries false fuel)
        | _ => do
            let k ← node false false fuel
            return (k, nothing) :: (← flowEntries false fuel)

end

/-- Skip the marks behind a document. -/
def skipEnds : Nat → Composer Unit
  | 0 => return
  | fuel + 1 => do
      match ← peek with
      | .documentEnd => do advance; skipEnds fuel
      | _ => return

/-- Skip directives. Tells whether there were any. -/
def skipDirectives : Nat → Composer Bool
  | 0 => return false
  | fuel + 1 => do
      match ← peek with
      | .directive => do
          advance
          let _ ← skipDirectives fuel
          return true
      | _ => return false

/-- Read the only document, if there is one. -/
def document (fuel : Nat) : Composer (Option Node) := do
  skipEnds fuel
  let hasDirectives ← skipDirectives fuel
  match ← peek with
  | .streamEnd => if hasDirectives then throw .order else return none
  | first => do
      if first = .documentStart then advance
      else if hasDirectives then throw .order
      let n ←
        match ← peek with
        | .streamEnd => pure nothing
        | .documentStart => pure nothing
        | .documentEnd => pure nothing
        | .directive => pure nothing
        | _ => node true false fuel
      skipEnds fuel
      let _ ← skipDirectives fuel
      match ← peek with
      | .streamEnd => return some n
      | .documentStart => throw .secondDocument
      | _ => throw .order

end Composer

/-- The node of a document; none without a document. -/
def nodeOf (tokens : List Token) : Except Defect (Option Node) := do
  let fuel := 3 * tokens.length + 3
  let (n, _) ← (Composer.document fuel).run { tokens, anchors := [] }
  return n

end CallProfile.StandIn.Yaml
