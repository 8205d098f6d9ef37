import CallProfile.Json.Writer
import CallProfile.Libraries
import CallProfile.Report.Basic
import CallProfile.Symbol.File

/-! # Reports as documents

A report is written as a JSON document with a member for every figure. A converter turns its
records into the data that is written, and makes them from what is read.
-/

namespace CallProfile

namespace Value

def textOrNull : Option String → Value
  | none => .null
  | some s => .text s

def intOrNull : Option Int → Value
  | none => .null
  | some n => .int n

/-! The values of a type; there is none for a value of another one. -/

def text? : Value → Option String
  | .text s => some s
  | _ => none

def int? : Value → Option Int
  | .int n => some n
  | _ => none

def real? : Value → Option Float
  | .real x => some x
  | _ => none

def textOrNull? : Value → Option (Option String)
  | .null => some none
  | v => v.text?.map some

def intOrNull? : Value → Option (Option Int)
  | .null => some none
  | v => v.int?.map some

def list? {α : Type} (item? : Value → Option α) : Value → Option (List α)
  | .list items => items.mapM item?
  | _ => none

def fields? : Value → Option (List Value)
  | .record fields => some (fields.map (·.2))
  | _ => none

end Value

namespace Report

/-! ## Records -/

def Edge.toValue (e : Edge) : Value :=
  .record [("name", .text e.name), ("start_address", .int e.start), ("call_count", .int e.calls),
    ("propagated_samples", .real e.charged)]

def Edge.shape : Shape :=
  .record [("name", .text, none), ("start_address", .int, none), ("call_count", .int, none),
    ("propagated_samples", .real, none)]

def Edge.ofValue? (v : Value) : Option Edge := do
  match ← v.fields? with
  | [name, start, calls, charged] =>
      return { name := ← name.text?, start := ← start.int?, calls := ← calls.int?
               charged := ← charged.real? }
  | _ => none

def SymbolFigures.toValue (s : SymbolFigures) : Value :=
  .record [("name", .text s.name), ("start_address", .int s.start), ("end_address", .int s.stop),
    ("source_file", .textOrNull s.source), ("self_samples", .int s.selfSamples),
    ("self_seconds", .real s.selfSeconds), ("cumulative_samples", .real s.cumulativeSamples),
    ("cumulative_seconds", .real s.cumulativeSeconds), ("percentage", .real s.percentage),
    ("calls", .int s.calls), ("self_calls", .int s.selfCalls),
    ("cycle_id", .intOrNull s.cycle), ("callers", .list (s.callers.map Edge.toValue)),
    ("callees", .list (s.callees.map Edge.toValue))]

def SymbolFigures.shape : Shape :=
  .record [("name", .text, none), ("start_address", .int, none), ("end_address", .int, none),
    ("source_file", .optional .text, some .null), ("self_samples", .int, none),
    ("self_seconds", .real, none), ("cumulative_samples", .real, none),
    ("cumulative_seconds", .real, none), ("percentage", .real, none), ("calls", .int, none),
    ("self_calls", .int, some (.int 0)), ("cycle_id", .optional .int, some .null),
    ("callers", .list Edge.shape, some (.list [])),
    ("callees", .list Edge.shape, some (.list []))]

def SymbolFigures.ofValue? (v : Value) : Option SymbolFigures := do
  match ← v.fields? with
  | [name, start, stop, source, selfSamples, selfSeconds, cumulativeSamples, cumulativeSeconds,
      percentage, calls, selfCalls, cycle, callers, callees] =>
      return { name := ← name.text?, start := ← start.int?, stop := ← stop.int?
               source := ← source.textOrNull?, selfSamples := ← selfSamples.int?
               selfSeconds := ← selfSeconds.real?, cumulativeSamples := ← cumulativeSamples.real?
               cumulativeSeconds := ← cumulativeSeconds.real?, percentage := ← percentage.real?
               calls := ← calls.int?, selfCalls := ← selfCalls.int?, cycle := ← cycle.intOrNull?
               callers := ← callers.list? Edge.ofValue?
               callees := ← callees.list? Edge.ofValue? }
  | _ => none

def FileFigures.toValue (f : FileFigures) : Value :=
  .record [("source_file", .textOrNull f.source), ("name", .text f.name),
    ("self_samples", .int f.selfSamples), ("self_seconds", .real f.selfSeconds),
    ("percentage", .real f.percentage),
    ("symbols", .list (f.symbols.map SymbolFigures.toValue))]

def FileFigures.shape : Shape :=
  .record [("source_file", .optional .text, some .null), ("name", .text, none),
    ("self_samples", .int, none), ("self_seconds", .real, none), ("percentage", .real, none),
    ("symbols", .list SymbolFigures.shape, some (.list []))]

def FileFigures.ofValue? (v : Value) : Option FileFigures := do
  match ← v.fields? with
  | [source, name, selfSamples, selfSeconds, percentage, symbols] =>
      return { source := ← source.textOrNull?, name := ← name.text?
               selfSamples := ← selfSamples.int?, selfSeconds := ← selfSeconds.real?
               percentage := ← percentage.real?
               symbols := ← symbols.list? SymbolFigures.ofValue? }
  | _ => none

def CycleFigures.toValue (c : CycleFigures) : Value :=
  .record [("cycle_id", .int c.number), ("head", .text c.head),
    ("members", .list (c.members.map .text)), ("self_samples", .int c.selfSamples),
    ("cumulative_samples", .real c.cumulativeSamples), ("call_count_in", .int c.callsIn)]

def CycleFigures.shape : Shape :=
  .record [("cycle_id", .int, none), ("head", .text, none),
    ("members", .list .text, some (.list [])), ("self_samples", .int, none),
    ("cumulative_samples", .real, none), ("call_count_in", .int, none)]

def CycleFigures.ofValue? (v : Value) : Option CycleFigures := do
  match ← v.fields? with
  | [number, head, members, selfSamples, cumulativeSamples, callsIn] =>
      return { number := ← number.int?, head := ← head.text?
               members := ← members.list? Value.text?, selfSamples := ← selfSamples.int?
               cumulativeSamples := ← cumulativeSamples.real?, callsIn := ← callsIn.int? }
  | _ => none

def Failure.toValue (f : Failure) : Value :=
  .record [("path", .text f.path), ("error", .text f.error)]

def Failure.shape : Shape :=
  .record [("path", .text, none), ("error", .text, none)]

def Failure.ofValue? (v : Value) : Option Failure := do
  match ← v.fields? with
  | [path, error] => return { path := ← path.text?, error := ← error.text? }
  | _ => none

def toValue (r : Report) : Value :=
  .record [("run_id", .text r.run), ("sample_rate", .int r.sampleRate),
    ("total_samples", .int r.total), ("attributed_samples", .int r.attributed),
    ("unattributed_samples", .int r.unattributed), ("unresolved_addresses", .int r.unresolved),
    ("sources", .list (r.sources.map .text)),
    ("files", .list (r.files.map FileFigures.toValue)),
    ("cycles", .list (r.cycles.map CycleFigures.toValue)),
    ("failures", .list (r.failures.map Failure.toValue))]

def shape : Shape :=
  .record [("run_id", .text, none), ("sample_rate", .int, none), ("total_samples", .int, none),
    ("attributed_samples", .int, none), ("unattributed_samples", .int, none),
    ("unresolved_addresses", .int, some (.int 0)), ("sources", .list .text, some (.list [])),
    ("files", .list FileFigures.shape, some (.list [])),
    ("cycles", .list CycleFigures.shape, some (.list [])),
    ("failures", .list Failure.shape, some (.list []))]

def ofValue? (v : Value) : Option Report := do
  match ← v.fields? with
  | [run, sampleRate, total, attributed, unattributed, unresolved, sources, files, cycles,
      failures] =>
      return { run := ← run.text?, sampleRate := ← sampleRate.int?, total := ← total.int?
               attributed := ← attributed.int?, unattributed := ← unattributed.int?
               unresolved := ← unresolved.int?, sources := ← sources.list? Value.text?
               files := ← files.list? FileFigures.ofValue?
               cycles := ← cycles.list? CycleFigures.ofValue?
               failures := ← failures.list? Failure.ofValue? }
  | _ => none

/-! ## Documents -/

/-- A report as text. Whole numbers with too many digits cannot be written. -/
def write (c : Converter) (indent : Option Nat) (r : Report) : Except Fault String :=
  let d := c.toData r.toValue
  if d.isShort then .ok (Json.write indent d) else .error .longNumber

def read (c : Converter) (text : String) : Except Fault Report := do
  match ofValue? (← c.ofData shape (← readJson text)) with
  | some r => return r
  | none => throw .wrongType

end Report

end CallProfile
