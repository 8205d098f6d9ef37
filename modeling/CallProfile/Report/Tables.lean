import CallProfile.Decimal.Notation
import CallProfile.Libraries
import CallProfile.Times.Rounded
import CallProfile.Tree.Basic

/-! # Tables of results

The flat profile lists the symbols with the most time of their own and the source files.
The call tables list for each symbol with calls its callers and callees, and the cycles.
Symbols that tie keep the order of the tree.
-/

namespace CallProfile

namespace Tree

variable {α : Type} [Times α]

/-- The first `n` items; a negative `n` leaves that many out at the end. -/
def firstOf {β : Type} (n : Int) (items : List β) : List β :=
  if 0 ≤ n then items.take n.toNat else items.take (items.length - n.natAbs)

/-- Whether a node has more cumulative time than another, or as much and the lower name. -/
def precedesByCumulative (a b : TreeNode α) : Bool :=
  match Amount.order? a.cumulative b.cumulative with
  | some .gt => true
  | some .eq => a.name < b.name
  | _ => false

/-- Whether a node has more time of its own than another, or as much and precedes it by
    cumulative time. -/
def precedesByOwn (a b : TreeNode α) : Bool :=
  if a.selfTime = b.selfTime then precedesByCumulative a b else b.selfTime < a.selfTime

def topSymbols (t : Tree α) (n : Int) : List (TreeNode α) :=
  firstOf n (t.symbols.mergeSort fun a b => !precedesByOwn b a)

/-- Whether the symbol of a node calls or is called. -/
def hasCalls (t : Tree α) (n : TreeNode α) : Bool :=
  !(t.callersOf n.id).isEmpty || !(t.calleesOf n.id).isEmpty || n.selfCalls ≠ 0

/-- The symbols with calls that have the most cumulative time. -/
def topCalling (t : Tree α) (n : Int) : List (TreeNode α) :=
  firstOf n ((t.symbols.filter t.hasCalls).mergeSort fun a b => !precedesByCumulative b a)

end Tree

namespace Report

/-- A time with a number of places after the point. -/
def shownTime (places : Nat) (x : Rounded) : Except Fault String := do
  return Decimal.fixed places (← x.value)

/-- The calls of a symbol, those to itself apart. -/
def shownCalls (n : TreeNode Rounded) : String :=
  let calls := toString (n.calls?.getD 0)
  if n.selfCalls = 0 then calls else s!"{calls}+{n.selfCalls}"

def flatRow (n : TreeNode Rounded) : Except Fault (List String) := do
  let source := n.source.getD ""
  return [← shownTime 2 n.percentage, ← shownTime 4 n.selfSeconds,
    ← shownTime 4 n.cumulativeSeconds, shownCalls n, n.label,
    if source = "" then "??" else source]

def fileRow (n : TreeNode Rounded) : Except Fault (List String) := do
  return [n.name, ← shownTime 2 n.percentage, toString n.selfTime, toString n.children.length]

/-- The flat profile with at most `limit` symbols. -/
def flatProfile (t : Tree Rounded) (limit : Int) : Except Fault (List Markdown.Block) := do
  let rows ← (t.topSymbols limit).mapM flatRow
  let files ← t.files.mapM fileRow
  return [.header 1 "Flat Profile",
    .list [s!"Sample rate: {t.sampleRate} Hz", s!"Total samples: {t.total}",
      s!"Attributed samples: {t.attributed}", s!"Unattributed samples: {t.unattributed}"],
    .paragraph s!"Rows: {rows.length} (k={limit})",
    .table ["% time", "self s", "cumulative s", "calls", "name", "file"] rows,
    .header 2 "Source Files",
    .table ["file", "% time", "self samples", "symbols"] files]

def edgeRow (t : Tree Rounded) (e : CallEdge Rounded) : Except Fault (List String) := do
  let node ← t.node e.node
  return [node.label, toString e.count, ← shownTime 2 e.charged]

/-- A table of edges under its title, nothing without edges. -/
def edgeTable (t : Tree Rounded) (title : String) (edges : List (CallEdge Rounded)) :
    Except Fault (List Markdown.Block) := do
  if edges.isEmpty then return []
  else
    return [.paragraph s!"**{title}**",
      .table ["name", "calls", "propagated samples"] (← edges.mapM (edgeRow t))]

def symbolTables (t : Tree Rounded) (n : TreeNode Rounded) :
    Except Fault (List Markdown.Block) := do
  let cumulative ← shownTime 2 n.cumulative.toTime
  let callers ← edgeTable t "Callers" (t.callersOf n.id)
  let callees ← edgeTable t "Callees" (t.calleesOf n.id)
  return .header 2 n.label ::
    .list [s!"self samples: {n.selfTime}", s!"cumulative samples: {cumulative}",
      s!"calls: {shownCalls n}"] ::
    (callers ++ callees)

def cycleLine (t : Tree Rounded) (c : TreeCycle Rounded) : Except Fault String := do
  let members ← c.members.mapM fun id : Nat => t.node id
  let head ← t.node c.head
  let cumulative ← shownTime 2 c.cumulative
  let names := ", ".intercalate (members.map (·.name))
  return s!"cycle {c.number}: head={head.name} self={c.selfTime} " ++
    s!"cumulative={cumulative} members=[{names}]"

/-- The call tables of at most `limit` symbols, and all cycles. -/
def callTables (t : Tree Rounded) (limit : Int) : Except Fault (List Markdown.Block) := do
  let ranked := t.topCalling limit
  let tables ← ranked.mapM (symbolTables t)
  let cycles ← t.cycles.mapM (cycleLine t)
  let empty := if ranked.isEmpty then [Markdown.Block.paragraph "No call-graph data."] else []
  let closing := if cycles.isEmpty then [] else [.header 2 "Cycles", .list cycles]
  return .header 1 "Call Graph" :: (empty ++ tables.flatten ++ closing)

/-- What names a document whose path is given: the path without the ending of documents. -/
def documentBase (path : String) : String :=
  if path.endsWith ".md" then (path.dropEnd 3).toString else path

end Report

end CallProfile
