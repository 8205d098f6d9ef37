import CallProfile.CallGraph.Basic

/-! # Result trees

The results form a tree: below the root a node for each source file, below each of them a
node for each symbol. The nodes lie in one list, each at the place that is its number,
and refer to each other by number.

Cumulative times have a meaning for symbols only. Summed over a file they would count a
callee once for each caller, so files and the root show their own samples there.
-/

namespace CallProfile

/-- What a node of a tree stands for. -/
inductive Role where
  | root
  /-- A source file, or everything without one. -/
  | file (source : Option String)
  /-- A symbol with the calls from others and to itself, and the number of its cycle. -/
  | symbol (symbol : Symbol) (calls selfCalls : Nat) (cycle : Option Nat)
  deriving DecidableEq

/-- A node of a result tree. -/
structure TreeNode (α : Type) where
  id : Nat
  role : Role
  parent : Option Nat
  children : List Nat
  selfTime : Int
  cumulative : Amount α
  /-- The percentage of all attributed samples. -/
  percentage : α
  /-- The number of buckets that hold samples. -/
  buckets : Int
  sampleRate : Int

namespace TreeNode

variable {α : Type}

def name (n : TreeNode α) : String :=
  match n.role with
  | .root => "Summary"
  | .file source => source.getD "??"
  | .symbol s _ _ _ => s.name

def source (n : TreeNode α) : Option String :=
  match n.role with
  | .root => none
  | .file source => source
  | .symbol s _ _ _ => s.source

def symbol? (n : TreeNode α) : Option Symbol :=
  match n.role with
  | .symbol s _ _ _ => some s
  | _ => none

/-- The calls from other symbols, for a symbol. -/
def calls? (n : TreeNode α) : Option Nat :=
  match n.role with
  | .symbol _ calls _ _ => some calls
  | _ => none

/-- The calls of a symbol to itself. -/
def selfCalls (n : TreeNode α) : Nat :=
  match n.role with
  | .symbol _ _ selfCalls _ => selfCalls
  | _ => 0

/-- The number of the cycle that a symbol belongs to. -/
def cycle (n : TreeNode α) : Option Nat :=
  match n.role with
  | .symbol _ _ _ cycle => cycle
  | _ => none

/-- The name of a node, with the number of its cycle. -/
def label (n : TreeNode α) : String :=
  match n.cycle with
  | none => n.name
  | some number => s!"{n.name} <cycle {number}>"

variable [Times α]

/-- The node's own time in seconds; zero without a sampling rate. -/
def selfSeconds (n : TreeNode α) : α :=
  (Amount.whole n.selfTime).divideBy n.sampleRate

/-- The cumulative time in seconds; zero without a sampling rate. -/
def cumulativeSeconds (n : TreeNode α) : α :=
  n.cumulative.divideBy n.sampleRate

/-- Whether every number of a node could be represented. -/
def fits (n : TreeNode α) : Bool :=
  n.cumulative.fits && Times.fits n.percentage

end TreeNode

/-- A caller or a callee of a symbol. -/
structure CallEdge (α : Type) where
  /-- The number of its node. -/
  node : Nat
  symbol : Symbol
  count : Nat
  /-- The time of the callee that is charged to the caller. -/
  charged : α

/-- A cycle by the numbers of its nodes. -/
structure TreeCycle (α : Type) where
  number : Nat
  members : List Nat
  head : Nat
  selfTime : Int
  cumulative : α
  callsIn : Nat

/-- The results of an analysis as a tree. -/
structure Tree (α : Type) where
  nodes : List (TreeNode α)
  /-- The callers of each symbol of the call graph, by its number. -/
  callers : List (Nat × List (CallEdge α))
  /-- The callees of each symbol of the call graph, by its number. -/
  callees : List (Nat × List (CallEdge α))
  cycles : List (TreeCycle α)
  /-- The samples where no symbol is. -/
  unattributed : Int
  sampleRate : Int
  diagnostics : List Diagnostic

namespace Tree

variable {α : Type}

/-- The node with a number. A negative number counts from the end. -/
def node? (t : Tree α) (id : Int) : Option (TreeNode α) :=
  if 0 ≤ id then t.nodes[id.toNat]?
  else if -(t.nodes.length : Int) ≤ id then t.nodes[(id + t.nodes.length).toNat]?
  else none

/-- The node with a number, which must be there. -/
def node (t : Tree α) (id : Int) : Except Fault (TreeNode α) :=
  match t.node? id with
  | some n => .ok n
  | none => .error .outOfRange

/-- The nodes with the given numbers. -/
def nodesAt (t : Tree α) (ids : List Nat) : List (TreeNode α) :=
  ids.filterMap fun id => t.nodes[id]?

/-- The nodes below one. -/
def childrenOf (t : Tree α) (n : TreeNode α) : List (TreeNode α) :=
  t.nodesAt n.children

def files (t : Tree α) : List (TreeNode α) :=
  (t.nodes.take 1).flatMap t.childrenOf

def file? (t : Tree α) (source : Option String) : Option (TreeNode α) :=
  t.files.find? (·.source = source)

/-- The nodes of the symbols, file by file. -/
def symbols (t : Tree α) : List (TreeNode α) :=
  t.files.flatMap t.childrenOf

def symbolNode? (t : Tree α) (s : Symbol) : Option (TreeNode α) :=
  t.nodes.find? (·.symbol? = some s)

/-- The nodes of all symbols with a name. -/
def named (t : Tree α) (name : String) : List (TreeNode α) :=
  t.symbols.filter (·.name = name)

def callersOf (t : Tree α) (id : Int) : List (CallEdge α) :=
  ((t.callers.find? fun e => (e.1 : Int) = id).map (·.2)).getD []

def calleesOf (t : Tree α) (id : Int) : List (CallEdge α) :=
  ((t.callees.find? fun e => (e.1 : Int) = id).map (·.2)).getD []

def cycle? (t : Tree α) (number : Int) : Option (TreeCycle α) :=
  t.cycles.find? fun c => (c.number : Int) = number

def attributed (t : Tree α) : Int :=
  (t.nodes.head?.map (·.selfTime)).getD 0

def total (t : Tree α) : Int :=
  t.attributed + t.unattributed

/-- The nodes below those on a stack, each before its children; at most `fuel` of them. -/
def walk (t : Tree α) : Nat → List Nat → List (TreeNode α)
  | 0, _ => []
  | _ + 1, [] => []
  | fuel + 1, id :: stack =>
      match t.nodes[id]? with
      | none => walk t fuel stack
      | some n => n :: walk t fuel (n.children ++ stack)

/-- All nodes, each before its children. -/
def preorder (t : Tree α) : List (TreeNode α) :=
  t.walk t.nodes.length [0]

end Tree

end CallProfile
