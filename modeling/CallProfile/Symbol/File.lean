import CallProfile.Files
import CallProfile.Libraries
import CallProfile.Symbol.Entry
import CallProfile.Symbol.Listing
import CallProfile.Symbol.Table

/-! # Where symbols come from

The symbols of a program come from a symbol map, which is a file in one of two formats, or
from the program itself, with the help of a tool that lists them.
-/

namespace CallProfile

/-- The data in a JSON document. -/
def readJson (text : String) : Except Fault Datum :=
  match Json.read text with
  | .ok d => .ok d
  | .error (.defect d) => .error (.json d)
  | .error (.longNumeral n) => .error (.longNumeral n)
  | .error .halfCharacter => .error .halfCharacter

/-- The document in a text that a file with the given ending holds. -/
def documentOf (readYaml : String → Except Fault Datum) (ending text : String) :
    Except Fault Datum :=
  if ending.toLower ∈ [".yaml", ".yml"] then readYaml text else readJson text

/-- The entries of a symbol map: the document itself, or what it holds under `symbols`. -/
def entriesOfDocument (path : String) (document : Datum) : Except Fault (List Datum) :=
  let entries :=
    match document with
    | .map members => (Datum.lookup? "symbols" members).getD (.list [])
    | d => d
  match entries with
  | .list items => .ok items
  | _ => .error (.noSymbolList path)

/-- The text in bytes; every kind of line end becomes the same one. -/
def textOfBytes (bytes : List UInt8) : Except Fault String :=
  match Text.utf8Decode bytes with
  | .ok chars => .ok (String.ofList (Text.unifyLineEnds chars))
  | .error e => .error (.notUtf8 e)

/-- The document of the symbol map at a path, whose bytes `read` finds. -/
def mapDocument (readYaml : String → Except Fault Datum)
    (read : String → Except Fault (List UInt8)) (path : Path) : Except Fault Datum := do
  documentOf readYaml path.ending (← textOfBytes (← read path.toString))

/-- The symbols of the symbol map at a path. -/
def symbolsOfFile (readYaml : String → Except Fault Datum)
    (read : String → Except Fault (List UInt8)) (given : String) : Except Fault (List Symbol) := do
  let path := Path.ofString given
  let document ← mapDocument readYaml read path
  symbolsOfEntries (← entriesOfDocument path.toString document)

/-- What a tool wrote, and its exit status. -/
structure ToolOutput where
  text : String
  status : Int

structure Tool where
  path : String
  /-- What the tool writes when it is called with arguments. -/
  run : List String → ToolOutput

/-- The command that lists the symbols of a program. -/
def listingCommand (cwd : Path) (tool : Tool) (program : String) : List String :=
  Listing.command tool.path (cwd.join (Path.ofString program)).toString

/-- The symbols that the tool lists for a program. -/
def symbolsOfProgram (cwd : Path) (tool : Option Tool) (program : String) :
    Except Fault (List Symbol) :=
  match tool with
  | none => .error .toolMissing
  | some tool =>
      let command := listingCommand cwd tool program
      let output := tool.run (command.drop 1)
      if output.status = 0 then symbolsOfListing output.text
      else .error (.toolFailed command output.status)

end CallProfile
