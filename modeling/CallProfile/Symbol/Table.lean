import CallProfile.Symbol.Basic

/-! # Symbol tables

A table answers which symbol an address belongs to. Where ranges nest or coincide it is
the narrowest one; among symbols of one width the first in the order of the table.

The symbols are sorted by start, so those that start at or below an address are the
first ones. Of them only those within the greatest size of the address can reach it.

An address that no symbol covers does not stop the analysis. It is kept as a diagnostic
with the samples or calls it carries, so that nothing is lost without a word.
-/

namespace CallProfile

/-- A sorted collection of distinct symbols. -/
structure SymbolTable where
  symbols : List Symbol
  /-- The greatest size of a symbol. -/
  reach : Nat

namespace SymbolTable

/-- Symbols by start, then from narrow to wide, then by name. -/
def inOrder (a b : Symbol) : Bool :=
  if a.start = b.start then
    if a.size = b.size then !(b.name < a.name) else a.size < b.size
  else a.start < b.start

/-- The table of the given symbols, equal ones counted once. Symbols that differ in their files
    only tie here. They keep the order of the list, where a set would have them in any. -/
def ofList (symbols : List Symbol) : SymbolTable :=
  let sorted := symbols.eraseDups.mergeSort inOrder
  { symbols := sorted
    reach := sorted.foldl (fun reach s => max reach s.size) 0 }

/-- The symbols that may contain an address, the last one first. -/
def candidates (t : SymbolTable) (address : Int) : List Symbol :=
  ((t.symbols.takeWhile fun s => (s.start : Int) ≤ address).reverse).takeWhile fun s =>
    address - t.reach ≤ (s.start : Int)

/-- Take a symbol instead of the best one so far if it contains the address and is not
    wider. -/
def better (address : Int) (best : Option Symbol) (s : Symbol) : Option Symbol :=
  if s.contains address then
    match best with
    | none => some s
    | some b => if s.size ≤ b.size then some s else best
  else best

/-- The symbol that an address belongs to. -/
def resolve (t : SymbolTable) (address : Int) : Option Symbol :=
  (t.candidates address).foldl (better address) none

def byName (t : SymbolTable) (name : String) : List Symbol :=
  t.symbols.filter (·.name = name)

def contains (t : SymbolTable) (s : Symbol) : Bool :=
  t.symbols.contains s

def shown (t : SymbolTable) : String :=
  s!"SymbolTable({t.symbols.length} symbols)"

end SymbolTable

/-- An address that no symbol covers. -/
structure Diagnostic where
  address : Int
  /-- What the address belongs to: a bucket or an arc. -/
  kind : String
  /-- The samples or calls it carries. -/
  count : Int
  detail : Option String
  deriving Repr, DecidableEq

/-- The wording of a diagnostic. An empty detail is left out. -/
def Diagnostic.message (d : Diagnostic) : String :=
  let extra :=
    match d.detail with
    | none => ""
    | some detail => if detail = "" then "" else s!" ({detail})"
  s!"unresolved {d.kind} address 0x{Text.hexText d.address} carrying {d.count}{extra}"

end CallProfile
