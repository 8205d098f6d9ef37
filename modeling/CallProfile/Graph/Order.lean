import CallProfile.Fault

/-! # Topological order

The vertices of an acyclic graph are put in an order in which every edge leads forward.
A vertex is ready once all edges into it come from vertices in the order; ready vertices
wait in a queue, and those that one vertex makes ready join it by number.

Vertices are the numbers below a count. A negative number counts from the end, so that -1
is another name of the last vertex.
-/

namespace CallProfile.Graph

/-- The vertex that a number names. -/
def vertex? (count : Nat) (v : Int) : Option Nat :=
  if 0 ≤ v then (if v < count then some v.toNat else none)
  else if -(count : Int) ≤ v then some (v + count).toNat
  else none

/-- An edge with the vertices that its numbers name. The number of the target is kept. -/
structure Edge where
  source : Nat
  target : Nat
  name : Int
  deriving Repr, DecidableEq

/-- The edges that pairs of numbers name, after those found before; a repeated one counts
    once. -/
def edgesAfter (count : Nat) (before : List Edge) : List (Int × Int) → Except Fault (List Edge)
  | [] => .ok before
  | (a, b) :: pairs =>
      if a = b then .error (.inconsistent (.selfLoop a))
      else
        match vertex? count a, vertex? count b with
        | some source, some target =>
            let edge := Edge.mk source target b
            edgesAfter count (if before.contains edge then before else before ++ [edge]) pairs
        | _, _ => .error .outOfRange

/-- How far an order has come: what is ready and what still blocks. -/
structure Schedule where
  /-- The numbers that are ready. -/
  ready : List Int
  /-- The edges from vertices that are not in the order. -/
  edges : List Edge
  deriving Repr

namespace Schedule

def isBlocked (edges : List Edge) (v : Nat) : Bool :=
  edges.any (·.target = v)

/-- Take an edge away. Its target is ready when it was the last one. -/
def release (o : Schedule) (edge : Edge) : Schedule :=
  let edges := o.edges.erase edge
  { ready := if isBlocked edges edge.target then o.ready else o.ready ++ [edge.name]
    edges }

/-- The edges from a vertex, by the numbers of their targets. -/
def edgesFrom (o : Schedule) (v : Nat) : List Edge :=
  (o.edges.filter (·.source = v)).mergeSort fun a b => a.name ≤ b.name

/-- Put ready vertices in the order, at most `fuel` of them. The edges that remain are
    returned with it. -/
def run (count : Nat) : Nat → Schedule → List Int × List Edge
  | 0, o => ([], o.edges)
  | fuel + 1, o =>
      match o.ready with
      | [] => ([], o.edges)
      | v :: ready =>
          let outgoing := ((vertex? count v).map o.edgesFrom).getD []
          let (order, edges) := run count fuel (outgoing.foldl release { o with ready })
          (v :: order, edges)

end Schedule

/-- The vertices below a count in an order in which every edge leads forward. -/
def topologicalOrder (count : Nat) (pairs : List (Int × Int)) : Except Fault (List Int) := do
  let edges ← edgesAfter count [] pairs
  let free := (List.range count).filter fun v => !Schedule.isBlocked edges v
  let (order, left) := Schedule.run count count { ready := free.map Int.ofNat, edges }
  if order.length = count then return order
  else
    let stuck := (List.range count).filter (Schedule.isBlocked left)
    throw (.inconsistent (.stuck order.length count (stuck.take 10)))

end CallProfile.Graph
