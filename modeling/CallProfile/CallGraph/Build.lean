import CallProfile.CallGraph.Basic
import CallProfile.Graph.Components
import CallProfile.Graph.Order

/-! # Building call graphs

A callee's cumulative time is shared out among its callers in proportion to their calls.
Symbols that call each other in a circle cannot be told apart by that rule, so a
component is charged as one: its time goes to the callers outside it. The components are
put in an order with callers first and charged from its end, so the times of all callees
are known when a component is charged.
-/

namespace CallProfile.CallGraph

open scoped Whole

variable {α : Type} [Times α]

/-- Symbols by start, name and source, a symbol without a source first. -/
def inOrder (a b : Symbol) : Bool :=
  if a.start = b.start then
    if a.name = b.name then !(b.source.getD "" < a.source.getD "") else a.name < b.name
  else a.start < b.start

/-- Symbols by start and name. -/
def byStart (a b : Symbol) : Bool :=
  if a.start = b.start then !(b.name < a.name) else a.start < b.start

/-- The symbols at the ends of arcs, sorted. Those that tie, such as two that differ in size only,
    keep the order of the arcs, where a set would have them in any. -/
def verticesOf (arcs : ArcTally) : List Symbol :=
  (arcs.keys.flatMap fun e => [e.1, e.2]).eraseDups.mergeSort inOrder

def calleesOf (arcs : ArcTally) (s : Symbol) : List (Symbol × Nat) :=
  arcs.entries.filterMap fun e =>
    if e.1.1 = s && e.1.2 ≠ s then some (e.1.2, e.2) else none

def callersOf (arcs : ArcTally) (s : Symbol) : List (Symbol × Nat) :=
  arcs.entries.filterMap fun e =>
    if e.1.2 = s && e.1.1 ≠ s then some (e.1.1, e.2) else none

/-- The symbols that each symbol calls, other than itself. -/
def adjacency (arcs : ArcTally) : List (Symbol × List Symbol) :=
  (verticesOf arcs).map fun s => (s, (calleesOf arcs s).map (·.1))

/-- The components of the symbols, each after those that it calls. -/
def componentsOf (arcs : ArcTally) : List (List Symbol) :=
  Graph.components (verticesOf arcs) (adjacency arcs)

/-- The numbers of the components at the ends of each arc between two of them. -/
def componentEdges (arcs : ArcTally) (components : List (List Symbol)) : List (Int × Int) :=
  (arcs.keys.filterMap fun e =>
    let caller := components.findIdx (·.contains e.1)
    let callee := components.findIdx (·.contains e.2)
    if caller = callee then none else some (Int.ofNat caller, Int.ofNat callee)).eraseDups

/-- The components, callers first. -/
def inCallOrder (arcs : ArcTally) (components : List (List Symbol)) :
    Except Fault (List (List Symbol)) := do
  let order ← Graph.topologicalOrder components.length (componentEdges arcs components)
  return order.filterMap fun i => components[i.toNat]?

/-- The calls that enter a set of symbols from outside. -/
def callsInto (arcs : ArcTally) (members : List Symbol) : Nat :=
  ((arcs.entries.filter fun e => members.contains e.1.2 && !members.contains e.1.1).map
    (·.2)).sum

/-- The part of a component's time that goes to some of the calls into it. -/
def Component.share (c : Component α) (calls : Nat) : α :=
  if c.callsIn = 0 then Times.ofInt 0 else Times.part c.cumulative calls c.callsIn

/-- The times that a symbol is charged for its callees, which are in finished components
    or in its own. -/
def charges (arcs : ArcTally) (finished : List (Component α)) (s : Symbol) :
    List (Symbol × α) :=
  (calleesOf arcs s).filterMap fun e =>
    (finished.find? (·.members.contains e.1)).map fun c => (e.1, Component.share c e.2)

def selfTimeOf (times : Symbol → Int) (members : List Symbol) : Int :=
  (members.map times).sum

/-- The component of a set of symbols, charged for its callees. -/
def chargedComponent (arcs : ArcTally) (times : Symbol → Int) (finished : List (Component α))
    (members : List Symbol) : Component α :=
  let own : α := Times.ofInt (selfTimeOf times members)
  let charged := members.flatMap fun s => (charges arcs finished s).map (·.2)
  { members, callsIn := callsInto arcs members, cumulative := charged.foldl Times.add own }

def finish (arcs : ArcTally) (times : Symbol → Int) (finished : List (Component α))
    (members : List Symbol) : List (Component α) :=
  finished ++ [chargedComponent arcs times finished members]

/-- The symbols other than those of the component of a symbol, by component. -/
def outside (components : List (Component α)) (s : Symbol) : List (Component α) :=
  components.filter fun c => !c.members.contains s

def selfCallsOf (arcs : ArcTally) (s : Symbol) : Nat :=
  arcs.count (s, s)

/-- The node of a symbol, before the cycles are known. -/
def nodeOf (arcs : ArcTally) (times : Symbol → Int) (components : List (Component α))
    (s : Symbol) : CallNode α :=
  let childTime := charges arcs (outside components s) s
  { symbol := s
    selfTime := times s
    cumulative :=
      if childTime.isEmpty then .whole (times s)
      else .time (Times.add (Times.ofInt (times s)) (Times.sum (childTime.map (·.2))))
    callers := callersOf arcs s
    callees := calleesOf arcs s
    selfCalls := selfCallsOf arcs s
    childTime
    cycle := none }

/-- Whether one node is a better head of a cycle than another: it has more time, its own
    counted twice, or as much and a lower start. -/
def isBetterHead (a b : CallNode α) : Bool :=
  match Amount.order? (a.cumulative.addTo a.selfTime) (b.cumulative.addTo b.selfTime) with
  | some .gt => true
  | some .eq => a.symbol.start < b.symbol.start
  | _ => false

/-- The head of a cycle among its nodes: the first one that no other is better than. -/
def headOf : List (CallNode α) → Option (CallNode α)
  | [] => none
  | n :: nodes => some (nodes.foldl (fun best n => if isBetterHead n best then n else best) n)

/-- Whether the nodes of a component make a cycle. -/
def isCycle (nodes : List (CallNode α)) : Bool :=
  1 < nodes.length || nodes.any fun n => 0 < n.selfCalls

def cycleOfComponent (nodes : List (CallNode α)) (number : Nat) (c : Component α) :
    Option (Cycle α) := do
  let members := c.members.mergeSort byStart
  let own := members.filterMap fun s => nodes.find? (·.symbol = s)
  guard (isCycle own)
  let head ← headOf own
  return { number, members, head := head.symbol, selfTime := (own.map (·.selfTime)).sum
           cumulative := c.cumulative, callsIn := c.callsIn }

/-- The cycles of components, numbered in their order. -/
def cyclesOf (nodes : List (CallNode α)) (number : Nat) :
    List (Component α) → List (Cycle α)
  | [] => []
  | c :: components =>
      match cycleOfComponent nodes number c with
      | some cycle => cycle :: cyclesOf nodes (number + 1) components
      | none => cyclesOf nodes number components

/-- Tell a node of its cycle. The head gets the time of the whole. -/
def enterCycle (cycles : List (Cycle α)) (n : CallNode α) : CallNode α :=
  match cycles.find? (·.contains n.symbol) with
  | none => n
  | some c =>
      { n with
        cycle := some c.number
        cumulative := if c.head = n.symbol then .time c.cumulative else n.cumulative }

/-- Whether every number of a call graph could be represented. -/
def fits (g : CallGraph α) : Bool :=
  g.components.all (fun c => Times.fits c.cumulative) &&
    g.nodes.all fun n => n.cumulative.fits && n.childTime.all fun c => Times.fits c.2

/-- The call graph of merged arcs with the components that they have, callees first. -/
def ofComponents (arcs : ArcTally) (times : Symbol → Int) (components : List (Component α)) :
    CallGraph α :=
  let nodes := (verticesOf arcs).map (nodeOf arcs times components)
  let cycles := cyclesOf nodes 1 components.reverse
  { nodes := nodes.map (enterCycle cycles), components, cycles, arcs, diagnostics := [] }

/-- The call graph of merged arcs. A symbol has the samples that `times` gives it. -/
def ofTally (arcs : ArcTally) (times : Symbol → Int) : Except Fault (CallGraph α) := do
  let order ← inCallOrder arcs (componentsOf arcs)
  let g := ofComponents arcs times (order.reverse.foldl (finish arcs times) [])
  if g.fits then return g else throw .overflow

def ofArcs (arcs : List Arc) (times : Symbol → Int) : Except Fault (CallGraph α) :=
  ofTally (Arc.merge arcs) times

def ofRawArcs (arcs : List RawArc) (table : SymbolTable) (times : Symbol → Int) :
    Except Fault (CallGraph α) := do
  let (merged, diagnostics) := resolveArcs arcs table
  return { ← ofTally merged times with diagnostics }

end CallProfile.CallGraph
