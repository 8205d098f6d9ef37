import CallProfile.Arc
import CallProfile.Times

/-! # Call graphs

A call graph has a node for every symbol that is the end of an arc. Its components are
the sets of symbols that call each other in a circle, or a symbol alone. A component
that really has a circle, be it one symbol that calls itself, is a cycle.
-/

namespace CallProfile

open scoped Whole

/-- A symbol with its times and its calls. -/
structure CallNode (α : Type) where
  symbol : Symbol
  /-- The samples of the symbol itself. -/
  selfTime : Int
  /-- The samples of the symbol and what it is charged for its callees. The head of a
      cycle has those of the whole cycle. -/
  cumulative : Amount α
  /-- The other symbols that call this one. -/
  callers : List (Symbol × Nat)
  /-- The other symbols that this one calls. -/
  callees : List (Symbol × Nat)
  /-- The calls of the symbol to itself. -/
  selfCalls : Nat
  /-- The time that this symbol is charged for each callee outside its component. -/
  childTime : List (Symbol × α)
  /-- The number of the cycle that the symbol belongs to. -/
  cycle : Option Nat

namespace CallNode

variable {α : Type}

/-- The calls from other symbols. -/
def callsIn (n : CallNode α) : Nat :=
  (n.callers.map (·.2)).sum

def callsOut (n : CallNode α) : Nat :=
  (n.callees.map (·.2)).sum

def isLeaf (n : CallNode α) : Bool :=
  n.callees.isEmpty

/-- The time that the symbol is charged for a callee, zero if none. -/
def chargedFor [Times α] (n : CallNode α) (callee : Symbol) : α :=
  (n.childTime.lookup callee).getD (Times.ofInt 0)

end CallNode

/-- A strongly connected component of a call graph. -/
structure Component (α : Type) where
  members : List Symbol
  /-- The calls that enter from outside. -/
  callsIn : Nat
  /-- The samples of the members and what they are charged for callees outside. -/
  cumulative : α

/-- A component with a circle of calls. -/
structure Cycle (α : Type) where
  number : Nat
  /-- The members by start and name. -/
  members : List Symbol
  /-- The member that stands for the cycle. -/
  head : Symbol
  selfTime : Int
  cumulative : α
  callsIn : Nat

def Cycle.contains {α : Type} (c : Cycle α) (s : Symbol) : Bool :=
  c.members.contains s

structure CallGraph (α : Type) where
  nodes : List (CallNode α)
  /-- The components, each after those that it calls. -/
  components : List (Component α)
  cycles : List (Cycle α)
  arcs : ArcTally
  diagnostics : List Diagnostic

namespace CallGraph

variable {α : Type}

def node? (g : CallGraph α) (s : Symbol) : Option (CallNode α) :=
  g.nodes.find? (·.symbol = s)

def cycle? (g : CallGraph α) (number : Int) : Option (Cycle α) :=
  g.cycles.find? (fun c => (c.number : Int) = number)

/-- The cycle that a symbol belongs to. -/
def cycleOf? (g : CallGraph α) (s : Symbol) : Option (Cycle α) := do
  g.cycle? (← (← g.node? s).cycle)

end CallGraph

end CallProfile
