import CallProfile.Datum.Number
import CallProfile.Symbol.Basic
import CallProfile.Text.Blank

/-! # Symbol maps

A symbol map is a list of entries with a name, a start, optionally an end or a size, and
optionally a file. Addresses are whole numbers or texts in base sixteen.
-/

namespace CallProfile

/-- The address that a value stands for; `place` names it in messages. -/
def addressOf (place : String) (d : Datum) : Except Fault Int :=
  match d with
  | .bool _ => .error (.address place d)
  | .int n => .ok n
  | d =>
      match Text.numeral? 16 (Text.trim d.plain.toList) with
      | some n => .ok n
      | none => .error (.address place d)

namespace Entry

/-- The parts of a value that has parts: characters, items or keys. -/
def parts? : Datum → Option (List Datum)
  | .text s => some (s.toList.map fun c => .text (String.singleton c))
  | .bytes b => some (b.map fun byte => .int byte.toNat)
  | .list items => some items
  | .tuple items => some items
  | .map entries => some (entries.map (·.1))
  | .other _ _ _ _ parts => parts
  | _ => none

/-- The mapping that pairs stand for; `index` counts the pairs before. -/
def mappingOf (index : Nat) (before : List (Datum × Datum)) :
    List Datum → Except Fault (List (Datum × Datum))
  | [] => .ok before
  | item :: items =>
      match parts? item with
      | none => .error .wrongType
      | some [key, value] =>
          if key.isKey then mappingOf (index + 1) (Datum.putKey key value before) items
          else .error .wrongType
      | some parts => .error (.unpairedEntry index parts.length)

/-- The fault of an entry without a name or a start. Its values are shown as a mapping,
    which only pairs make. -/
def bare (index : Nat) (entry : Datum) : Fault :=
  match entry with
  | .map _ => .bareEntry index entry
  | entry =>
      match parts? entry with
      | none => .wrongType
      | some items =>
          match mappingOf 0 [] items with
          | .ok entries => .bareEntry index (.map entries)
          | .error fault => fault

/-- Whether an entry that is no mapping holds a name and a start: a text among its
    characters, anything else among its parts. Such an entry has nothing under them. -/
def holdsNames (entry : Datum) : Bool :=
  let holds (name : String) : Bool :=
    match entry with
    | .text s => Text.occurs name.toList s.toList
    | entry => ((parts? entry).getD []).any (·.isText name)
  holds "name" && holds "start"

/-- The end that a mapping tells for a range with a given start; it need not tell one. -/
def stopOf (index : Nat) (entries : List (Datum × Datum)) (start : Int) :
    Except Fault (Option Int) :=
  let stop := (Datum.lookup? "end" entries).getD .null
  let size := (Datum.lookup? "size" entries).getD .null
  if stop.isNull then
    if size.isNull then .ok none
    else (addressOf s!"symbol entry #{index} size" size).map fun n => some (start + n)
  else (addressOf s!"symbol entry #{index} end" stop).map some

/-- The file that a mapping tells; it need not tell one. -/
def sourceOf (entries : List (Datum × Datum)) : Except Fault (Option String) :=
  let file := (Datum.lookup? "file" entries).getD
    ((Datum.lookup? "source_file" entries).getD .null)
  if file.holds then file.toText.map some else .ok none

/-- The row of a mapping with a name and a start. -/
def rowOf (index : Nat) (entries : List (Datum × Datum)) (name start : Datum) :
    Except Fault SymbolRow := do
  let start ← addressOf s!"symbol entry #{index} start" start
  let stop ← stopOf index entries start
  return { name := ← name.toText, start, stop, source := ← sourceOf entries }

def row (index : Nat) (entry : Datum) : Except Fault SymbolRow :=
  match entry with
  | .map entries =>
      match Datum.lookup? "name" entries, Datum.lookup? "start" entries with
      | some name, some start => rowOf index entries name start
      | _, _ => .error (bare index entry)
  | .bytes _ => .error .wrongType
  | entry => .error (if holdsNames entry then .wrongType else bare index entry)

/-- The rows of entries, the first of which has the given index. -/
def rowsFrom (index : Nat) : List Datum → Except Fault (List SymbolRow)
  | [] => .ok []
  | entry :: entries => do
      let row ← row index entry
      return row :: (← rowsFrom (index + 1) entries)

end Entry

/-- The symbols of the entries of a symbol map, sorted by start. -/
def symbolsOfEntries (entries : List Datum) : Except Fault (List Symbol) := do
  closeRanges (← Entry.rowsFrom 0 entries)

end CallProfile
