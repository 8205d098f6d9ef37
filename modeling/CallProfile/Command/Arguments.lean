import CallProfile.Datum.Number

/-! # Arguments of the command

Options can stand between the inputs, but the inputs stand side by side. An option takes
its value from behind an equals sign or from the next argument, and the start of its name
is enough when no other option starts so. After `--` everything is an input.
-/

namespace CallProfile.Command

/-- An option of the command. -/
inductive Flag where
  | help
  | symbols
  | program
  | layout
  | runName
  | folder
  | workers
  | limit
  | change
  deriving Repr, DecidableEq

namespace Flag

def name : Flag → String
  | .help => "--help"
  | .symbols => "--symbols"
  | .program => "--binary"
  | .layout => "--layout"
  | .runName => "--run-id"
  | .folder => "--out-dir"
  | .workers => "--workers"
  | .limit => "--top-k"
  | .change => "--override"

/-- The options by their names. Only one has a short name besides. -/
def named : List (String × Flag) :=
  ("-h", .help) :: [.help, .symbols, .program, .layout, .runName, .folder, .workers, .limit,
    .change].map fun flag => (flag.name, flag)

def allNames (flag : Flag) : String :=
  "/".intercalate ((named.filter fun e => e.2 = flag).map (·.1))

end Flag

/-- Why arguments cannot be used. -/
inductive Misuse where
  /-- An argument that starts several options. -/
  | ambiguous (argument : String) (names : List String)
  /-- An option without its value. -/
  | noValue (flag : Flag)
  /-- A value for an option that takes none. -/
  | spareValue (flag : Flag) (text : String)
  | tooSmall (flag : Flag) (n : Int)
  | notANumber (flag : Flag) (text : String)
  | noInputs
  /-- Arguments that are no options, or stand where no input can. -/
  | unknown (arguments : List String)
  deriving Repr, DecidableEq

def Misuse.message : Misuse → String
  | .ambiguous argument names =>
      let names := ", ".intercalate names
      s!"ambiguous option: {argument} could match {names}"
  | .noValue flag => s!"argument {flag.allNames}: expected one argument"
  | .spareValue flag text =>
      s!"argument {flag.allNames}: ignored explicit argument {Text.quoted text}"
  | .tooSmall flag n => s!"argument {flag.allNames}: must be >= 1, got {n}"
  | .notANumber flag text =>
      s!"argument {flag.allNames}: invalid _positive_int value: {Text.quoted text}"
  | .noInputs => "the following arguments are required: gmon"
  | .unknown arguments =>
      let shown := " ".intercalate arguments
      s!"unrecognized arguments: {shown}"

/-- What the command is asked to do. -/
structure Request where
  inputs : List String
  symbols : Option String
  program : Option String
  layout : Option String
  runName : Option String
  folder : Option String
  workers : Option Int
  limit : Option Int
  changes : List String
  deriving Repr, DecidableEq

/-- An argument by its kind. -/
inductive Argument where
  | word (text : String)
  /-- The argument after which everything is an input. -/
  | separator
  /-- An option, and the value that it brings along. -/
  | option (flag : Flag) (value : Option String)
  | unknown (text : String)
  deriving Repr, DecidableEq

/-- Whether a text is a negative decimal number without an exponent. -/
def isNegativeNumber (s : List Char) : Bool :=
  let isDigit (c : Char) : Bool := (Text.decimalDigit? c).isSome
  match s with
  | '-' :: rest =>
      match rest.dropWhile isDigit with
      | [] => !rest.isEmpty
      | '.' :: fraction => !fraction.isEmpty && fraction.all isDigit
      | _ => false
  | _ => false

namespace Argument

/-- Split a text at its first equals sign. -/
def splitValue (s : List Char) : List Char × Option String :=
  match s.dropWhile (· ≠ '=') with
  | [] => (s, none)
  | _ :: value => (s.takeWhile (· ≠ '='), some (String.ofList value))

/-- The options that a text can mean when it starts their names. The short name can be
    said more than once in one argument. -/
def candidates (s : List Char) : List (String × Flag × Option String) :=
  match s with
  | '-' :: '-' :: _ =>
      let (start, value) := splitValue s
      (Flag.named.filter fun e => start.isPrefixOf e.1.toList).map fun e => (e.1, e.2, value)
  | '-' :: 'h' :: rest =>
      match rest.dropWhile (· = 'h') with
      | [] => [("-h", .help, none)]
      | other => [("-h", .help, some (String.ofList other))]
  | _ => []

/-- The option that a text names in full, and the value behind an equals sign. -/
def inFull? (s : List Char) : Option (Flag × Option String) :=
  match Flag.named.lookup (String.ofList s) with
  | some flag => some (flag, none)
  | none =>
      match splitValue s with
      | (name, some value) =>
          (Flag.named.lookup (String.ofList name)).map fun flag => (flag, some value)
      | (_, none) => none

/-- The kind of an argument before any separator. -/
def ofString (text : String) : Except Misuse Argument :=
  let s := text.toList
  if s.head? ≠ some '-' || s.length = 1 then .ok (.word text)
  else
    match inFull? s with
    | some (flag, value) => .ok (.option flag value)
    | none =>
        match candidates s with
        | [(_, flag, value)] => .ok (.option flag value)
        | [] =>
            if isNegativeNumber s || s.contains ' ' then .ok (.word text)
            else .ok (.unknown text)
        | several => .error (.ambiguous text (several.map (·.1)))

def ofStrings : List String → Except Misuse (List Argument)
  | [] => .ok []
  | text :: rest =>
      if text = "--" then .ok (.separator :: rest.map .word)
      else do return (← ofString text) :: (← ofStrings rest)

end Argument

/-- What has been found in the arguments so far. -/
structure Reading where
  request : Request
  /-- Whether the inputs have come to an end. -/
  closed : Bool
  spare : List String

namespace Reading

def start : Reading where
  request :=
    { inputs := [], symbols := none, program := none, layout := none, runName := none
      folder := none, workers := none, limit := none, changes := [] }
  closed := false
  spare := []

/-- An option ends the inputs if there have been some. -/
def close (r : Reading) : Reading :=
  { r with closed := !r.request.inputs.isEmpty }

/-- Note an argument that has no use. -/
def addSpare (r : Reading) (text : String) : Reading :=
  { r with spare := r.spare ++ [text] }

/-- Note an input, unless the inputs have come to an end. -/
def addInput (r : Reading) (text : String) : Reading :=
  if r.closed then r.addSpare text
  else { r with request := { r.request with inputs := r.request.inputs ++ [text] } }

/-- The number above zero that a text spells. -/
def positive (flag : Flag) (text : String) : Except Misuse Int :=
  match Datum.textToInt text with
  | .ok n => if n < 1 then .error (.tooSmall flag n) else .ok n
  | .error _ => .error (.notANumber flag text)

/-- Note the value of an option. Only changes add up; of other options the last one
    counts. -/
def set (r : Reading) (flag : Flag) (text : String) : Except Misuse Reading := do
  let q := r.request
  let request ←
    match flag with
    | .help => pure q
    | .symbols => pure { q with symbols := some text }
    | .program => pure { q with program := some text }
    | .layout => pure { q with layout := some text }
    | .runName => pure { q with runName := some text }
    | .folder => pure { q with folder := some text }
    | .workers => pure { q with workers := some (← positive flag text) }
    | .limit => pure { q with limit := some (← positive flag text) }
    | .change => pure { q with changes := q.changes ++ [text] }
  return { r with request }

end Reading

/-- What comes of arguments: a request, or that help is asked for. -/
inductive Asked where
  | help
  | report (request : Request)

/-- Go through arguments after those that have been read. -/
def readFrom (r : Reading) : List Argument → Except Misuse Asked
  | [] =>
      if r.request.inputs.isEmpty then .error .noInputs
      else if r.spare.isEmpty then .ok (.report r.request)
      else .error (.unknown r.spare)
  | .word text :: rest => readFrom (r.addInput text) rest
  | .separator :: rest => readFrom (if r.closed then r.addSpare "--" else r) rest
  | .unknown text :: rest => readFrom (r.close.addSpare text) rest
  | .option .help none :: _ => .ok .help
  | .option .help (some text) :: _ => .error (.spareValue .help text)
  | .option flag (some text) :: rest => do readFrom (← r.close.set flag text) rest
  | .option flag none :: .word text :: rest => do readFrom (← r.close.set flag text) rest
  | .option flag none :: _ => .error (.noValue flag)

def read (arguments : List String) : Except Misuse Asked := do
  readFrom Reading.start (← Argument.ofStrings arguments)

def usage : String :=
  "usage: gmon-report [-h] [--symbols SYMBOLS] [--binary BINARY] [--layout LAYOUT] " ++
    "[--run-id RUN_ID] [--out-dir OUT_DIR] [--workers WORKERS] [--top-k TOP_K] " ++
    "[--override OVERRIDE] gmon [gmon ...]"

end CallProfile.Command
