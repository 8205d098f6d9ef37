import CallProfile.Datum.Number
import CallProfile.Recording.Record
import CallProfile.Symbol.Basic

/-! # Records given field by field

Symbols and the parts of recordings can be built from named values. First the names are
checked, then each value in the order of the fields: its type, then its range.
-/

namespace CallProfile

/-- Values given for the fields of a record. -/
abbrev Given := List (String × Datum)

namespace Given

/-- Check that every required field is given and every given field is known. -/
def checkNames (given : Given) (required optional : List String) : Except Fault Unit :=
  if required.all (fun name => given.any (·.1 = name)) &&
      given.all (fun g => required.contains g.1 || optional.contains g.1) then .ok ()
  else .error .wrongType

/-- The value of a field; null when it is not given. -/
def value (given : Given) (name : String) : Datum :=
  ((given.find? (·.1 = name)).map (·.2)).getD .null

def int (given : Given) (name : String) : Except Fault Int :=
  match (given.value name).int? with
  | some n => .ok n
  | none => .error .wrongType

def nat (given : Given) (name : String) : Except Fault Nat := do
  match ← given.int name with
  | .ofNat n => return n
  | .negSucc n => throw (.negative name (.int (.negSucc n)))

def text (given : Given) (name : String) : Except Fault String :=
  match given.value name with
  | .text s => .ok s
  | _ => .error .wrongType

/-- The value of a field that holds a text, or `default` when it is not given. -/
def textOr (given : Given) (name default : String) : Except Fault String :=
  if given.any (·.1 = name) then given.text name else .ok default

def text? (given : Given) (name : String) : Except Fault (Option String) :=
  match given.value name with
  | .null => .ok none
  | .text s => .ok (some s)
  | _ => .error .wrongType

end Given

def Symbol.ofGiven (given : Given) : Except Fault Symbol := do
  given.checkNames ["name", "start_address", "end_address"] ["source_file"]
  let name ← given.text "name"
  let start ← given.nat "start_address"
  let stop ← given.nat "end_address"
  let bare ← Symbol.make name start stop none
  return { bare with source := ← given.text? "source_file" }

def Histogram.ofGiven (given : Given) : Except Fault Histogram := do
  given.checkNames ["low_pc", "high_pc", "bucket_count", "sample_rate"]
    ["dimension", "dimension_abbrev"]
  return {
    low := ← given.nat "low_pc"
    high := ← given.nat "high_pc"
    bucketCount := ← given.nat "bucket_count"
    sampleRate := ← given.nat "sample_rate"
    dimension := ← given.textOr "dimension" "seconds"
    abbreviation := ← given.textOr "dimension_abbrev" "s" }

def Bucket.ofGiven (given : Given) : Except Fault Bucket := do
  given.checkNames ["index", "sample_count"] []
  return { index := ← given.nat "index", samples := ← given.nat "sample_count" }

/-- An arc between addresses from its fields. Its place in a file may be anything. -/
def RawArc.ofGiven (given : Given) : Except Fault RawArc := do
  given.checkNames ["from_pc", "self_pc", "call_count"] ["offset"]
  return {
    source := ← given.nat "from_pc"
    target := ← given.nat "self_pc"
    count := ← given.nat "call_count"
    offset := (given.value "offset").int?.getD 0 }

def BlockCount.ofGiven (given : Given) : Except Fault BlockCount := do
  given.checkNames ["address", "count"] []
  return { address := ← given.nat "address", count := ← given.nat "count" }

end CallProfile
