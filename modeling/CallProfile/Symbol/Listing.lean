import CallProfile.Symbol.Basic
import CallProfile.Text.Blank
import CallProfile.Text.Letter
import CallProfile.Text.Numeral

/-! # Listings of symbols

The tool that lists the symbols of a program writes one line for each: the address in
base sixteen, the size when it is known, a letter for the type, the name, and after a
tab the place in the source. Only code symbols count.
-/

namespace CallProfile

namespace Listing

/-- The letters of code symbols. -/
def codeTypes : List (List Char) :=
  [['T'], ['t'], ['W'], ['w']]

/-- The command that lists the defined symbols of a program by address, with sizes and
    places. -/
def command (tool program : String) : List String :=
  [tool, "-n", "-S", "-l", "--defined-only", "-C", program]

/-- The number of a field in base sixteen. -/
def number (field : List Char) : Except Fault Int :=
  match Text.numeral? 16 field with
  | some n => .ok n
  | none => .error (.numeral 16 (Text.quoted (String.ofList field)))

/-- The file of a place, the part before its line number. -/
def fileOf (place : List Char) : Option String :=
  let file := Text.beforeLast ':' (Text.trim place)
  if file.isEmpty || file = ['?', '?'] then none else some (String.ofList file)

/-- Whether a field is the letter of a type. -/
def isType : List Char → Bool
  | [c] => Text.isLetter c
  | _ => false

/-- The row of a code symbol; a size of zero leaves it open. -/
def codeRow (address : List Char) (size : Option Int) (name place : List Char) :
    Except Fault SymbolRow := do
  let start ← number address
  let stop :=
    match size with
    | none => none
    | some size => if size = 0 then none else some (start + size)
  return { name := String.ofList (Text.trim name), start, stop
           source := if place.isEmpty then none else fileOf place }

/-- The row of a line, when it is one of a code symbol. A size is read whatever the
    type. -/
def row (line : List Char) : Except Fault (Option SymbolRow) := do
  let (fields, place) := Text.cutAtFirst '\t' line
  match Text.wordsThenRest 3 fields with
  | address :: kind :: name :: more =>
      if isType kind then
        if codeTypes.contains kind then
          return some (← codeRow address none (Text.join [' '] (name :: more)) place)
        else return none
      else
        match more with
        | [longName] =>
            let size ← number kind
            if codeTypes.contains name then
              return some (← codeRow address (some size) longName place)
            else return none
        | _ => return none
  | _ => return none

def rows (text : String) : Except Fault (List SymbolRow) := do
  let rows ← (Text.lines text.toList).mapM row
  return rows.filterMap id

end Listing

/-- The code symbols of a listing, sorted by start. -/
def symbolsOfListing (text : String) : Except Fault (List Symbol) := do
  closeRanges (← Listing.rows text)

end CallProfile
