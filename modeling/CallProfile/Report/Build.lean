import CallProfile.Report.Basic
import CallProfile.Times.Rounded
import CallProfile.Tree.Basic

/-! # Reports on trees

Files and symbols keep the order of the tree. Every node below a file must be a symbol.
-/

namespace CallProfile.Report

def edgeOf (e : CallEdge Rounded) : Except Fault Edge := do
  return { name := e.symbol.name, start := e.symbol.start, calls := e.count
           charged := ← e.charged.value }

def symbolOf (t : Tree Rounded) (n : TreeNode Rounded) : Except Fault SymbolFigures := do
  match n.role with
  | .symbol s calls selfCalls cycle =>
      return {
        name := s.name, start := s.start, stop := s.stop, source := s.source
        selfSamples := n.selfTime
        selfSeconds := ← n.selfSeconds.value
        cumulativeSamples := ← n.cumulative.toTime.value
        cumulativeSeconds := ← n.cumulativeSeconds.value
        percentage := ← n.percentage.value
        calls, selfCalls, cycle := cycle.map Int.ofNat
        callers := ← (t.callersOf n.id).mapM edgeOf
        callees := ← (t.calleesOf n.id).mapM edgeOf }
  | _ => throw (.inconsistent (.noSymbol n.id n.name))

def fileOf (t : Tree Rounded) (n : TreeNode Rounded) : Except Fault FileFigures := do
  return { source := n.source, name := n.name, selfSamples := n.selfTime
           selfSeconds := ← n.selfSeconds.value
           percentage := ← n.percentage.value
           symbols := ← (t.childrenOf n).mapM (symbolOf t) }

def cycleOf (t : Tree Rounded) (c : TreeCycle Rounded) : Except Fault CycleFigures := do
  let head ← t.node c.head
  let members ← c.members.mapM fun id : Nat => t.node id
  return { number := c.number, head := head.name, members := members.map (·.name)
           selfSamples := c.selfTime
           cumulativeSamples := ← c.cumulative.value
           callsIn := c.callsIn }

/-- The report on a tree. -/
def ofTree (t : Tree Rounded) (run : String) (failures : List Failure)
    (sources : List String) : Except Fault Report := do
  return { run, sampleRate := t.sampleRate, total := t.total, attributed := t.attributed
           unattributed := t.unattributed, unresolved := t.diagnostics.length, sources
           files := ← t.files.mapM (fileOf t)
           cycles := ← t.cycles.mapM (cycleOf t)
           failures }

end CallProfile.Report
