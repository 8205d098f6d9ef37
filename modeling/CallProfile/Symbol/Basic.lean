import CallProfile.Fault

/-! # Symbols

A symbol is a named range of addresses, its end excluded, with the source file it comes
from when that is known. Two symbols are equal when all four values are; functions that
share a name in different files stay distinct.

Many sources of symbols tell only where a symbol starts. Such an open row extends to the
next start that is higher than its own; the last one covers a single address. A row
whose end is not above its start counts as open.
-/

namespace CallProfile

/-- A named range of addresses. -/
structure Symbol where
  name : String
  start : Nat
  stop : Nat
  source : Option String
  start_le_stop : start ≤ stop
  deriving DecidableEq

namespace Symbol

def size (s : Symbol) : Nat :=
  s.stop - s.start

def contains (s : Symbol) (address : Int) : Bool :=
  (s.start : Int) ≤ address && address < s.stop

/-- The symbol with the given values, when they make one. -/
def make (name : String) (start stop : Int) (source : Option String) :
    Except Fault Symbol :=
  match start, stop with
  | .negSucc n, _ => .error (.negative "start_address" (.int (.negSucc n)))
  | _, .negSucc n => .error (.negative "end_address" (.int (.negSucc n)))
  | .ofNat start, .ofNat stop =>
      if h : start ≤ stop then .ok ⟨name, start, stop, source, h⟩
      else .error (.endBeforeStart name start stop)

end Symbol

/-- A symbol whose end may be open. -/
structure SymbolRow where
  name : String
  start : Int
  stop : Option Int
  source : Option String
  deriving Repr, DecidableEq

namespace SymbolRow

/-- Rows by their start, those with one start in the order they came. -/
def sort (rows : List SymbolRow) : List SymbolRow :=
  rows.mergeSort fun a b => a.start ≤ b.start

/-- The end of an open row, given all starts in increasing order. -/
def openStop (starts : List Int) (start : Int) : Int :=
  (starts.find? (start < ·)).getD (start + 1)

/-- The end of a row: its own when that is above its start. -/
def closedStop (starts : List Int) (row : SymbolRow) : Int :=
  match row.stop with
  | some stop => if row.start < stop then stop else openStop starts row.start
  | none => openStop starts row.start

/-- The symbol of a row, given all starts in increasing order. -/
def close (starts : List Int) (row : SymbolRow) : Except Fault Symbol :=
  Symbol.make row.name row.start (row.closedStop starts) row.source

end SymbolRow

/-- One symbol for each row, sorted by start. -/
def closeRanges (rows : List SymbolRow) : Except Fault (List Symbol) :=
  let sorted := SymbolRow.sort rows
  sorted.mapM (SymbolRow.close (sorted.map (·.start)))

end CallProfile
