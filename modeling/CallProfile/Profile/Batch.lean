import CallProfile.Path
import CallProfile.Profile.Basic

/-! # Batches

A batch analyses several inputs and adds them up in their order. An input that cannot be
read or decoded, or whose sampling rate differs from those before it, is left out and
kept as a failure; it leaves no trace in the results.
-/

namespace CallProfile

open scoped Whole

/-- The name of a fault that concerns one input only. -/
def Fault.inputName? : Fault → Option String
  | .malformed .. => some "MalformedGmonFile"
  | .truncated .. => some "TruncatedRecord"
  | .rates .. => some "ValueError"
  | .file problem _ => some problem.kind
  | _ => none

namespace Batch

/-- An input: the path as it was given, and its bytes or why there are none. -/
structure Input where
  path : String
  /-- The name of the recording. -/
  source : String
  content : Except Fault (List UInt8)

/-- The input at a path, whose bytes `read` finds. It is named by the path without idle parts. -/
def inputFrom (read : String → Except Fault (List UInt8)) (path : String) : Input :=
  let source := (Path.ofString path).toString
  { path, source, content := read source }

structure Failure where
  path : String
  fault : Fault

def Failure.message (f : Failure) : String :=
  f.fault.inputName?.getD "" ++ ": " ++ f.fault.message

def profileOf (layout : Layout) (table : SymbolTable) (input : Input) :
    Except Fault Profile := do
  Profile.ofBytes layout table input.source (← input.content)

/-- What came of one input. -/
inductive Outcome where
  | profile (path : String) (p : Profile)
  | failure (f : Failure)

/-- What comes of an input. A fault that concerns more than the input stops the batch. -/
def outcome (layout : Layout) (table : SymbolTable) (input : Input) :
    Except Fault Outcome :=
  match profileOf layout table input with
  | .ok p => .ok (.profile input.path p)
  | .error fault =>
      if fault.inputName?.isSome then .ok (.failure { path := input.path, fault })
      else .error fault

/-- The sum of the profiles so far, and the inputs left out. -/
structure Progress where
  merged : Profile
  failures : List Failure

/-- Add what came of one more input. -/
def Progress.add (progress : Progress) : Outcome → Progress
  | .failure f => { progress with failures := progress.failures ++ [f] }
  | .profile path p =>
      match progress.merged.add p with
      | .ok merged => { progress with merged }
      | .error fault => { progress with failures := progress.failures ++ [{ path, fault }] }

/-- Add up outcomes in their order. -/
def collect (outcomes : List Outcome) : Progress :=
  outcomes.foldl Progress.add { merged := Profile.empty, failures := [] }

end Batch

/-- The results of several inputs. -/
structure Batch (α : Type) where
  merged : Profile
  graph : CallGraph α
  tree : Tree α
  failures : List Batch.Failure

namespace Batch

variable {α : Type} [Times α]

/-- Check the number of workers, if one is given. -/
def checkWorkers : Option Int → Except Fault Unit
  | none => .ok ()
  | some count => if count < 1 then .error (.workers count) else .ok ()

/-- Analyse inputs. How many workers share the work makes no difference to the results. -/
def analyze (layout : Layout) (table : SymbolTable) (workers : Option Int)
    (inputs : List Input) : Except Fault (Batch α) := do
  checkWorkers workers
  let progress := collect (← inputs.mapM (outcome layout table))
  let graph ← progress.merged.callGraph
  let tree ← progress.merged.treeOf graph
  return { merged := progress.merged, graph, tree, failures := progress.failures }

def succeeded (b : Batch α) : List String :=
  b.merged.sources

end Batch

end CallProfile
