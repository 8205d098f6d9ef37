import CallProfile.Datum.Shown
import CallProfile.Json.Reader
import CallProfile.Text.Utf8

/-! # Faults

Everything that can go wrong between reading a profile and writing a report, as causes
with the values that explain them. The wording stands in one place, `Fault.message`.
-/

namespace CallProfile

/-- A defect of the analysis itself. No input should lead to one. -/
inductive Inconsistency where
  /-- A condensed call graph has an edge from a component to itself. -/
  | selfLoop (component : Int)
  /-- A condensed call graph has a cycle; the components left over are listed. -/
  | stuck (ordered count : Nat) (left : List Nat)
  /-- A tree node for a symbol carries none. -/
  | noSymbol (node : Nat) (name : String)
  deriving Repr, DecidableEq

/-- Why a file could not be used. -/
inductive FileProblem where
  | missing
  | directory
  | notDirectory
  | exists
  /-- Any other reason, such as a right that is lacking, by its kind and its wording. -/
  | other (kind text : String)
  deriving Repr, DecidableEq

/-- The parts of a moment. -/
inductive MomentPart where
  | year
  | month
  | day
  | hour
  | minute
  | second
  | microsecond
  deriving Repr, DecidableEq

/-- A fault that a library reports. -/
structure LibraryFault where
  kind : String
  text : String
  /-- Whether it counts as one of the faults that a user is told of when a run is set up. -/
  isTold : Bool
  deriving Repr, DecidableEq

/-- A cause of failure. -/
inductive Fault where
  /-- A profile differs from its layout at an offset. -/
  | malformed (context : String) (offset : Int) (expected actual : Datum)
  /-- A profile ends inside a record. -/
  | truncated (record : String) (offset expected available : Int)
  /-- The bytes found for a record are not as many as it holds. -/
  | unevenRecord
  /-- Decoding does not come to an end. -/
  | endless
  | inconsistent (cause : Inconsistency)
  /-- A number too large for the arithmetic of times. -/
  | overflow
  /-- An index outside its range. -/
  | outOfRange
  /-- A value of the wrong type, or an unknown or missing field. -/
  | wrongType
  /-- A count or an address below zero. -/
  | negative (field : String) (value : Datum)
  /-- A symbol that ends before it starts. -/
  | endBeforeStart (name : String) (start stop : Int)
  /-- A field width that no number has. -/
  | width (field : String) (value : Datum)
  | byteOrder (value : Datum)
  | unknownLayout (name : Datum)
  /-- A value that is no address. -/
  | address (place : String) (value : Datum)
  /-- An entry of a symbol map without a name or a start. -/
  | bareEntry (index : Nat) (entry : Datum)
  /-- An entry of a symbol map whose items are no pairs. -/
  | unpairedEntry (index length : Nat)
  /-- A document that holds no list of symbols. -/
  | noSymbolList (path : String)
  /-- A text that is no numeral in the base. -/
  | numeral (base : Nat) (shown : String)
  /-- A number that is none, where a whole number is needed. -/
  | notANumber
  /-- Profiles with different sampling rates. -/
  | rates (first second : String)
  | workers (count : Int)
  | configuredWorkers (count : Int)
  /-- A part of a moment outside its range. -/
  | moment (part : MomentPart) (value : Int)
  /-- The folder of a run has not been chosen. -/
  | noFolder
  | file (problem : FileProblem) (path : String)
  | toolMissing
  | toolFailed (command : List String) (status : Int)
  | notUtf8 (e : Text.Utf8Error)
  | json (d : Json.Defect)
  | longNumeral (digits : Nat)
  /-- A whole number with more digits than are written. -/
  | longNumber
  /-- A text that holds half of a surrogate pair, for which there is no character. -/
  | halfCharacter
  | library (f : LibraryFault)

namespace Inconsistency

def message : Inconsistency → String
  | .selfLoop component => s!"condensed call graph has a self-loop on component {component}"
  | .stuck ordered count left =>
      let shown := (Datum.list (left.map fun n : Nat => .int n)).shown
      s!"condensed call graph is not acyclic: {ordered}/{count} components ordered, " ++
        s!"stuck={shown}"
  | .noSymbol node name => s!"symbol node {node} ({Text.quoted name}) carries no symbol"

end Inconsistency

namespace FileProblem

def message : FileProblem → String
  | .missing => "[Errno 2] No such file or directory"
  | .directory => "[Errno 21] Is a directory"
  | .notDirectory => "[Errno 20] Not a directory"
  | .exists => "[Errno 17] File exists"
  | .other _ text => text

def kind : FileProblem → String
  | .missing => "FileNotFoundError"
  | .directory => "IsADirectoryError"
  | .notDirectory => "NotADirectoryError"
  | .exists => "FileExistsError"
  | .other kind _ => kind

end FileProblem

def MomentPart.message (value : Int) : MomentPart → String
  | .year => s!"year {value} is out of range"
  | .month => "month must be in 1..12"
  | .day => "day is out of range for month"
  | .hour => "hour must be in 0..23"
  | .minute => "minute must be in 0..59"
  | .second => "second must be in 0..59"
  | .microsecond => "microsecond must be in 0..999999"

namespace Fault

def layoutNames : String := "gnu-v1, gnu-v1-32"

/-- The wording for a whole number with too many digits. -/
def longNumberText : String :=
  s!"Exceeds the limit ({Datum.digitLimit} digits) for integer string conversion; " ++
    "use sys.set_int_max_str_digits() to increase the limit"

/-- A wording that shows a value, which must not be too long for it. -/
def showing (value : Datum) (text : String → String) : String :=
  if value.isShort then text value.shown else longNumberText

def message : Fault → String
  | .malformed context offset expected actual =>
      let start := if context = "" then "" else context ++ ": "
      s!"{start}malformed gmon data at offset {offset}: expected {expected.shown}, " ++
        s!"got {actual.shown}"
  | .truncated record offset expected available =>
      s!"truncated {record} at offset {offset}: need {expected} bytes, {available} available"
  | .unevenRecord => "record of uneven length"
  | .endless => "decoding does not come to an end"
  | .inconsistent cause => cause.message
  | .overflow => "number too large"
  | .outOfRange => "index out of range"
  | .wrongType => "value of the wrong type"
  | .negative field value =>
      showing value fun shown => s!"{field} must be non-negative, got {shown}"
  | .endBeforeStart name start stop =>
      s!"end_address must be >= start_address for {Text.quoted name}, " ++
        s!"got 0x{Text.hexText stop} < 0x{Text.hexText start}"
  | .width field value => s!"{field} must be 1, 2, 4 or 8 bytes, got {value.shown}"
  | .byteOrder value =>
      s!"'byte_order' must be in ('little', 'big', 'auto') (got {value.shown})"
  | .unknownLayout name =>
      s!"Unknown gmon layout {name.shown}; known layouts: {layoutNames}"
  | .address place value => showing value fun shown => s!"{place} must be an address, got {shown}"
  | .bareEntry index entry =>
      showing entry fun shown => s!"symbol entry #{index} needs 'name' and 'start': {shown}"
  | .unpairedEntry index length =>
      s!"dictionary update sequence element #{index} has length {length}; 2 is required"
  | .noSymbolList path =>
      s!"{path}: expected a list of symbols or a mapping with 'symbols'"
  | .numeral base shown =>
      s!"invalid literal for int() with base {base}: {String.ofList (shown.toList.take 200)}"
  | .notANumber => "cannot convert float NaN to integer"
  | .rates first second =>
      s!"cannot merge profiles with different sample rates: {first} vs {second}"
  | .workers count => s!"max_workers must be >= 1, got {count}"
  | .configuredWorkers count => s!"batch.max_workers must be >= 1, got {count}"
  | .moment part value => part.message value
  | .noFolder => "Report root not set. Use from_root() or set_root()."
  | .file problem path => s!"{problem.message}: {Text.quoted path}"
  | .toolMissing =>
      "binutils 'nm' not found in PATH. Install binutils and verify with 'nm --version'."
  | .toolFailed command status =>
      let shown := (Datum.list (command.map .text)).shown
      s!"Command '{shown}' returned non-zero exit status {status}."
  | .notUtf8 e => e.message
  | .json d => d.message
  | .longNumeral digits =>
      s!"Exceeds the limit ({Datum.digitLimit} digits) for integer string conversion: " ++
        s!"value has {digits} digits; use sys.set_int_max_str_digits() to increase the limit"
  | .longNumber => longNumberText
  | .halfCharacter => "half of a surrogate pair"
  | .library f => f.text

end Fault

end CallProfile
