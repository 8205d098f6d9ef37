/-! # The depth-first search as a recursion

The search for the strongly connected components of a graph, as a recursion on the depth.
The vertices that are not yet in a component form a path; a vertex whose search reaches
nothing lower on the path closes a component, which is everything from the top of the path
down to it.
-/

namespace CallProfile.Graph

variable {V : Type} [DecidableEq V]

/-- Where a search stands. -/
structure Search (V : Type) where
  /-- The vertices that are met and not yet in a component, the latest first. -/
  path : List V
  /-- The finished components, the latest first. -/
  finished : List (List V)

namespace Search

/-- The number of vertices below a vertex on the path. -/
def height? (s : Search V) (v : V) : Option Nat :=
  match s.path.dropWhile (· ≠ v) with
  | [] => none
  | _ :: below => some below.length

def isFinished (s : Search V) (v : V) : Bool :=
  s.finished.any (·.contains v)

def enter (s : Search V) (v : V) : Search V :=
  { s with path := v :: s.path }

/-- Finish the component of the path from its top down to a vertex. -/
def close (s : Search V) (v : V) : Search V where
  path := (s.path.dropWhile (· ≠ v)).drop 1
  finished := (s.path.takeWhile (· ≠ v) ++ [v]) :: s.finished

end Search

/-- Follow an edge to a vertex; `below` is the search from one that is not met yet. The
    number is the height of the lowest vertex of the path that was seen so far. -/
def follow (below : V → Search V → Nat × Search V) (found : Nat × Search V) (w : V) :
    Nat × Search V :=
  match found.2.height? w with
  | some height => (min found.1 height, found.2)
  | none =>
      if found.2.isFinished w then found
      else
        let reached := below w found.2
        (min found.1 reached.1, reached.2)

/-- Search from a vertex that is not met yet. The number is the height of the lowest
    vertex of the path that the search has seen an edge to. -/
def visit (next : V → List V) : Nat → V → Search V → Nat × Search V
  | 0, _, s => (s.path.length, s)
  | fuel + 1, v, s =>
      let found := (next v).foldl (follow (visit next fuel)) (s.path.length, s.enter v)
      if found.1 < s.path.length then found else (found.1, found.2.close v)

/-- Search from a vertex unless it is in a component already. -/
def sweep (next : V → List V) (fuel : Nat) (s : Search V) (v : V) : Search V :=
  if s.isFinished v then s else (visit next fuel v s).2

def searchAll (next : V → List V) (fuel : Nat) (vertices : List V) : Search V :=
  vertices.foldl (sweep next fuel) { path := [], finished := [] }

end CallProfile.Graph
