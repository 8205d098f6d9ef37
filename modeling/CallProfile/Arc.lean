import CallProfile.Recording.Record
import CallProfile.Symbol.Table
import CallProfile.Tally

/-! # Arcs between symbols

An arc tells how often one symbol called another. Arcs with the same two ends are one arc
with all their calls. A recorded arc names addresses; when no symbol is at one of its
ends it is left out, with a diagnostic for each such end.
-/

namespace CallProfile

open scoped Whole

/-- Calls from one symbol to another. -/
structure Arc where
  caller : Symbol
  callee : Symbol
  count : Nat
  deriving DecidableEq

/-- The calls of each caller and callee. -/
abbrev ArcTally := Tally (Symbol × Symbol) Nat

namespace Arc

/-- The arc with the given values, when they make one. -/
def make (caller callee : Symbol) (count : Int) : Except Fault Arc :=
  match count with
  | .ofNat count => .ok { caller, callee, count }
  | .negSucc n => .error (.negative "call_count" (.int (.negSucc n)))

def ends (a : Arc) : Symbol × Symbol :=
  (a.caller, a.callee)

/-- The arcs with their calls added up by their ends. -/
def merge (arcs : List Arc) : ArcTally :=
  Tally.ofList (arcs.map fun a => (a.ends, a.count))

def ofTally (t : ArcTally) : List Arc :=
  t.entries.map fun e => { caller := e.1.1, callee := e.1.2, count := e.2 }

end Arc

/-- A recorded arc with the symbols at its ends. -/
structure LocatedArc where
  raw : RawArc
  caller : Option Symbol
  callee : Option Symbol

namespace LocatedArc

/-- The arc between the symbols, when both are there. -/
def arc? (a : LocatedArc) : Option Arc := do
  return { caller := ← a.caller, callee := ← a.callee, count := a.raw.count }

/-- A diagnostic for each end without a symbol, the caller first. -/
def diagnostics (a : LocatedArc) : List Diagnostic :=
  let lost (address other : Nat) (role : String) : Diagnostic :=
    { address, kind := "arc", count := a.raw.count
      detail := some s!"{role} of 0x{Text.hexText other}" }
  (if a.caller.isNone then [lost a.raw.source a.raw.target "caller"] else []) ++
    if a.callee.isNone then [lost a.raw.target a.raw.source "callee"] else []

end LocatedArc

/-- Recorded arcs as calls between symbols, and the diagnostics of those left out. -/
def resolveArcs (arcs : List RawArc) (table : SymbolTable) : ArcTally × List Diagnostic :=
  let located := arcs.map fun raw =>
    { raw, caller := table.resolve raw.source, callee := table.resolve raw.target :
      LocatedArc }
  (Arc.merge (located.filterMap (·.arc?)), located.flatMap (·.diagnostics))

end CallProfile
