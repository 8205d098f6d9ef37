import CallProfile.Attribution
import CallProfile.CallGraph.Build
import CallProfile.Recording.Decode
import CallProfile.Tree.Build

/-! # Profiles

A profile is what one or several recordings say about symbols. Each recording gives a
profile of its own; profiles are then added up, key by key. Only those with one sampling
rate can be added, a rate of zero agreeing with every other.

Recordings give natural numbers. Profiles can be added up whatever numbers they have.
-/

namespace CallProfile

open scoped Whole

/-- The samples and calls of recordings, attributed to symbols. -/
structure Profile (ν : Type := Nat) where
  samples : Tally Symbol ν
  buckets : Tally Symbol ν
  arcs : Tally (Symbol × Symbol) ν
  /-- The samples where no symbol is. -/
  unattributed : ν
  /-- The rate of the samples, zero without a histogram. -/
  sampleRate : ν
  diagnostics : List Diagnostic
  /-- The names of the recordings. -/
  sources : List String
  /-- The number of basic-block counts. -/
  blocks : ν

namespace Profile

section Sums

variable {ν : Type} [Add ν] [Zero ν]

/-- The profile of no recording. -/
def empty : Profile ν where
  samples := Tally.empty
  buckets := Tally.empty
  arcs := Tally.empty
  unattributed := 0
  sampleRate := 0
  diagnostics := []
  sources := []
  blocks := 0

def attributed (p : Profile ν) : ν :=
  p.samples.total

def total (p : Profile ν) : ν :=
  p.attributed + p.unattributed

variable [DecidableEq ν] [ToString ν]

omit [Add ν] in
def commonRate (first second : ν) : Except Fault ν :=
  if second = 0 then .ok first
  else if first = 0 || first = second then .ok second
  else .error (.rates (toString first) (toString second))

def add (p q : Profile ν) : Except Fault (Profile ν) := do
  return {
    samples := p.samples.merge q.samples
    buckets := p.buckets.merge q.buckets
    arcs := p.arcs.merge q.arcs
    unattributed := p.unattributed + q.unattributed
    sampleRate := ← commonRate p.sampleRate q.sampleRate
    diagnostics := p.diagnostics ++ q.diagnostics
    sources := p.sources ++ q.sources
    blocks := p.blocks + q.blocks }

def merge (profiles : List (Profile ν)) : Except Fault (Profile ν) :=
  profiles.foldlM add empty

end Sums

def ofRecording (table : SymbolTable) (source : String) (r : Recording) : Profile :=
  let a := Attribution.ofSections r.sections table
  let (arcs, lost) := resolveArcs r.arcs table
  { samples := a.samples
    buckets := a.buckets
    arcs
    unattributed := a.unattributed
    sampleRate := a.sampleRate
    diagnostics := a.diagnostics ++ lost
    sources := [source]
    blocks := r.blocks.length }

def ofBytes (layout : Layout) (table : SymbolTable) (source : String) (bytes : List UInt8) :
    Except Fault Profile := do
  return ofRecording table source (← decode layout bytes)

/-! ## Results -/

variable {α : Type} [Times α]

/-- What the tree of a profile is built from. -/
def treeSamples (p : Profile) : Tree.Samples where
  samples := p.samples.mapAmounts Int.ofNat
  buckets := p.buckets.mapAmounts Int.ofNat
  unattributed := p.unattributed
  sampleRate := p.sampleRate
  diagnostics := p.diagnostics

def callGraph (p : Profile) : Except Fault (CallGraph α) :=
  CallGraph.ofArcs (Arc.ofTally p.arcs) fun s => p.samples.count s

/-- The tree of a profile with its call graph. -/
def treeOf (p : Profile) (graph : CallGraph α) : Except Fault (Tree α) :=
  Tree.build p.treeSamples (some graph)

def tree (p : Profile) : Except Fault (Tree α) := do
  p.treeOf (← p.callGraph)

end Profile

end CallProfile
