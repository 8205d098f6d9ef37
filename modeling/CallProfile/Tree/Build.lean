import CallProfile.Tree.Basic

/-! # Building result trees

Files are sorted by path, with the symbols that have none last. The symbols of a file are
sorted by their own time, the greatest first, then by name and start. Numbers follow that
order: the root, then each file with its symbols behind it.
-/

namespace CallProfile.Tree

open scoped Whole

variable {α : Type} [Times α]

/-- What a tree is built from, the call graph apart. -/
structure Samples where
  /-- The samples of each symbol. -/
  samples : Tally Symbol Int
  /-- The buckets of each symbol. -/
  buckets : Tally Symbol Int
  unattributed : Int
  sampleRate : Int
  diagnostics : List Diagnostic

/-- The nodes of a call graph, none without one. -/
def graphNodes (graph : Option (CallGraph α)) : List (CallNode α) :=
  match graph with
  | none => []
  | some g => g.nodes

/-- The symbols of a tree: those with samples and those of the call graph. Those that tie when a
    file is sorted, two that differ in size only, keep this order, where a set would have them in
    any. -/
def symbolsOf (p : Samples) (nodes : List (CallNode α)) : List Symbol :=
  let sampled := (p.samples.entries.filter (0 < ·.2)).map (·.1)
  (sampled ++ nodes.map (·.symbol)).eraseDups

/-- Sources by path, none last. -/
def sourceInOrder : Option String → Option String → Bool
  | none, none => true
  | none, some _ => false
  | some _, none => true
  | some a, some b => !(b < a)

/-- Symbols from the most samples to the fewest, then by name and start. -/
def symbolInOrder (p : Samples) (a b : Symbol) : Bool :=
  if p.samples.count a = p.samples.count b then
    if a.name = b.name then a.start ≤ b.start else a.name < b.name
  else p.samples.count b < p.samples.count a

/-- The symbols of each source, everything sorted. -/
def groupsOf (p : Samples) (symbols : List Symbol) : List (Option String × List Symbol) :=
  let sources := (symbols.map (·.source)).eraseDups.mergeSort sourceInOrder
  sources.map fun source =>
    (source, (symbols.filter (·.source = source)).mergeSort (symbolInOrder p))

/-- A file and its symbols with their numbers. -/
structure Group where
  id : Nat
  source : Option String
  members : List (Nat × Symbol)

/-- Number files and symbols from a number on. -/
def numbered (next : Nat) : List (Option String × List Symbol) → List Group
  | [] => []
  | (source, symbols) :: groups =>
      let members := symbols.zipIdx (next + 1) |>.map fun m => (m.2, m.1)
      { id := next, source, members } :: numbered (next + 1 + symbols.length) groups

def symbolNode (p : Samples) (nodes : List (CallNode α)) (total : Int) (file : Nat)
    (id : Nat) (s : Symbol) : TreeNode α :=
  let own := p.samples.count s
  let found := nodes.find? (·.symbol = s)
  { id, parent := some file, children := [], selfTime := own
    role :=
      match found with
      | some n => .symbol s n.callsIn n.selfCalls n.cycle
      | none => .symbol s 0 0 none
    cumulative :=
      match found with
      | some n => n.cumulative
      | none => .time (Times.ofInt own)
    percentage := Times.percentage own total
    buckets := p.buckets.count s
    sampleRate := p.sampleRate }

def fileNode (p : Samples) (total : Int) (g : Group) : TreeNode α :=
  let own := (g.members.map fun m => p.samples.count m.2).sum
  { id := g.id, role := .file g.source, parent := some 0
    children := g.members.map (·.1), selfTime := own
    cumulative := .time (Times.ofInt own)
    percentage := Times.percentage own total
    buckets := (g.members.map fun m => p.buckets.count m.2).sum
    sampleRate := p.sampleRate }

def rootNode (p : Samples) (total : Int) (groups : List Group) : TreeNode α where
  id := 0
  role := .root
  parent := none
  children := groups.map (·.id)
  selfTime := total
  cumulative := .time (Times.ofInt total)
  percentage := Times.percentage total total
  buckets := p.buckets.total
  sampleRate := p.sampleRate

/-- The node of a file and those of its symbols. -/
def groupNodes (p : Samples) (nodes : List (CallNode α)) (total : Int) (g : Group) :
    List (TreeNode α) :=
  fileNode p total g :: g.members.map fun m => symbolNode p nodes total g.id m.1 m.2

/-- The number of a symbol's node. -/
def idOf? (groups : List Group) (s : Symbol) : Option Nat :=
  ((groups.flatMap (·.members)).find? (·.2 = s)).map (·.1)

/-- Neighbours from the most calls to the fewest, then by name. -/
def callsInOrder (a b : Symbol × Nat) : Bool :=
  if a.2 = b.2 then !(b.1.name < a.1.name) else b.2 < a.2

/-- Edges to neighbours, sorted; `charged` tells the time of each. -/
def edgesTo (groups : List Group) (charged : Symbol → α) (neighbours : List (Symbol × Nat)) :
    List (CallEdge α) :=
  (neighbours.mergeSort callsInOrder).filterMap fun e =>
    (idOf? groups e.1).map fun node =>
      { node, symbol := e.1, count := e.2, charged := charged e.1 }

/-- The time that a caller is charged for a callee. -/
def chargedTo (nodes : List (CallNode α)) (callee caller : Symbol) : α :=
  match nodes.find? (·.symbol = caller) with
  | some n => n.chargedFor callee
  | none => Times.ofInt 0

/-- The edges of every symbol of a call graph, by the number of its node. -/
def edgesOf (groups : List Group) (nodes : List (CallNode α))
    (edges : CallNode α → List (CallEdge α)) : List (Nat × List (CallEdge α)) :=
  nodes.filterMap fun n => (idOf? groups n.symbol).map fun id => (id, edges n)

/-- A cycle by numbers of nodes. -/
def cycleOf? (groups : List Group) (c : Cycle α) : Option (TreeCycle α) := do
  return { number := c.number, members := c.members.filterMap (idOf? groups)
           head := ← idOf? groups c.head, selfTime := c.selfTime
           cumulative := c.cumulative, callsIn := c.callsIn }

/-- The tree of samples and a call graph, if there is one. -/
def assemble (p : Samples) (graph : Option (CallGraph α)) : Tree α :=
  let nodes := graphNodes graph
  let symbols := symbolsOf p nodes
  let total := (symbols.map p.samples.count).sum
  let groups := numbered 1 (groupsOf p symbols)
  { nodes := rootNode p total groups :: groups.flatMap (groupNodes p nodes total)
    callers := edgesOf groups nodes fun n => edgesTo groups (chargedTo nodes n.symbol) n.callers
    callees := edgesOf groups nodes fun n => edgesTo groups n.chargedFor n.callees
    cycles :=
      match graph with
      | none => []
      | some g => g.cycles.filterMap (cycleOf? groups)
    unattributed := p.unattributed
    sampleRate := p.sampleRate
    diagnostics := p.diagnostics }

/-- The tree of samples and a call graph, when every number can be represented. -/
def build (p : Samples) (graph : Option (CallGraph α)) : Except Fault (Tree α) :=
  let t := assemble p graph
  if t.nodes.all (·.fits) then .ok t else .error .overflow

end CallProfile.Tree
