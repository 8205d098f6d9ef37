/-! # Strongly connected components

One depth-first search finds the components of a directed graph. It keeps a list of the
vertices under way with the edges that are still to follow, so that no graph is too deep
for it. Vertices are numbered as they are met, and a vertex from which no lower number is
seen closes a component: what was met since, and is in none yet. A component is therefore
finished after all those that it leads to.
-/

namespace CallProfile.Graph

variable {V : Type} [DecidableEq V]

/-- Where a search stands. -/
structure Work (V : Type) where
  /-- The numbers of the vertices that are met. -/
  index : V → Option Nat
  /-- The lowest number of the stack that was seen from a vertex that is met. -/
  low : V → Nat
  counter : Nat
  /-- The vertices that are met and not yet in a component, the latest first. -/
  stack : List V
  /-- The finished components, the latest first. -/
  components : List (List V)
  /-- The vertices under way, each with the edges that are left, the latest first. -/
  frames : List (V × List V)

namespace Work

def start : Work V where
  index _ := none
  low _ := 0
  counter := 0
  stack := []
  components := []
  frames := []

def meet (next : V → List V) (w : Work V) (v : V) : Work V where
  index u := if u = v then some w.counter else w.index u
  low u := if u = v then w.counter else w.low u
  counter := w.counter + 1
  stack := v :: w.stack
  components := w.components
  frames := (v, next v) :: w.frames

/-- Note a number that is seen from a vertex. -/
def lower (w : Work V) (v : V) (number : Nat) : Work V :=
  { w with low := fun u => if u = v then min (w.low v) number else w.low u }

def follow (next : V → List V) (w : Work V) (v u : V) : Work V :=
  match w.index u with
  | none => w.meet next u
  | some number => if u ∈ w.stack then w.lower v number else w

/-- Finish the component of the stack from its top down to a vertex. -/
def close (w : Work V) (v : V) : Work V :=
  { w with
    stack := (w.stack.dropWhile (· ≠ v)).drop 1
    components := (w.stack.takeWhile (· ≠ v) ++ [v]) :: w.components }

/-- Pass on what is seen from a vertex to the one that it was met from. -/
def passOn (w : Work V) (v : V) : Work V :=
  match w.frames with
  | [] => w
  | (parent, _) :: _ => w.lower parent (w.low v)

/-- Leave a vertex that has no edge left. -/
def leave (w : Work V) (v : V) : Work V :=
  let passed := w.passOn v
  if passed.index v = some (passed.low v) then passed.close v else passed

/-- One round of the search, unless no vertex is under way. -/
def step (next : V → List V) (w : Work V) : Work V :=
  match w.frames with
  | [] => w
  | (v, []) :: rest => leave { w with frames := rest } v
  | (v, u :: edges) :: rest => follow next { w with frames := (v, edges) :: rest } v u

/-- Go on until no vertex is under way. -/
def run (next : V → List V) : Nat → Work V → Work V
  | 0, w => w
  | rounds + 1, w => if w.frames.isEmpty then w else run next rounds (w.step next)

/-- Search from a vertex unless it is met already. -/
def search (next : V → List V) (rounds : Nat) (w : Work V) (v : V) : Work V :=
  if (w.index v).isSome then w else (w.meet next v).run next rounds

def searchAll (next : V → List V) (rounds : Nat) (vertices : List V) : Work V :=
  vertices.foldl (search next rounds) start

end Work

/-- The vertices that follow one, none when the graph does not list them. -/
def successorsOf (successors : List (V × List V)) (v : V) : List V :=
  (successors.lookup v).getD []

/-- No more vertices than these can be met. -/
def depthBound (vertices : List V) (successors : List (V × List V)) : Nat :=
  (vertices ++ successors.flatMap (·.2)).length

/-- A search takes no more rounds than these: one for each edge and one to leave each vertex. -/
def roundBound (vertices : List V) (successors : List (V × List V)) : Nat :=
  depthBound vertices successors * (depthBound vertices successors + 1)

/-- The strongly connected components of the vertices that the given ones reach. -/
def components (vertices : List V) (successors : List (V × List V)) : List (List V) :=
  let rounds := roundBound vertices successors
  (Work.searchAll (successorsOf successors) rounds vertices).components.reverse

end CallProfile.Graph
