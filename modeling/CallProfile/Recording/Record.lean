import CallProfile.Decimal.Binary64
import CallProfile.Layout

/-! # Recordings

What a profile file holds once it is decoded: histogram sections with their counters,
arcs between addresses, and counts of basic blocks. Addresses are still addresses; no
symbol is known here.
-/

namespace CallProfile

open scoped Whole

/-- What a histogram counts: the range of addresses, the number of buckets that tile it,
    and the rate of the samples. -/
structure Histogram where
  low : Nat
  high : Nat
  bucketCount : Nat
  sampleRate : Nat
  /-- The unit in which the rate counts. -/
  dimension : String
  abbreviation : String
  deriving Repr, DecidableEq

namespace Histogram

/-- The address at which bucket `i` starts: the range is divided evenly and rounded
    down. Without buckets every address is the lowest. -/
def bucketAddress (h : Histogram) (i : Int) : Int :=
  if h.bucketCount = 0 then h.low
  else h.low + Int.fdiv (i * ((h.high : Int) - h.low)) h.bucketCount

/-- The addresses of bucket `i`, the second one excluded. -/
def bucketRange (h : Histogram) (i : Int) : Int × Int :=
  (h.bucketAddress i, h.bucketAddress (i + 1))

/-- The addresses that one bucket covers on average. -/
def bucketWidth (h : Histogram) : Except Fault Float :=
  if h.bucketCount = 0 then .ok 0
  else
    match Decimal.nearestQuotient? ((h.high : Int) - h.low) h.bucketCount with
    | some x => .ok x
    | none => .error .overflow

end Histogram

/-- One counter of a histogram. -/
structure Bucket where
  index : Nat
  samples : Nat
  deriving Repr, DecidableEq

/-- A histogram with its counters, and where it stands in the file. -/
structure Section where
  histogram : Histogram
  buckets : List Bucket
  offset : Int
  deriving Repr, DecidableEq

def Section.total (s : Section) : Nat :=
  (s.buckets.map (·.samples)).sum

/-- Calls from one address to another. -/
structure RawArc where
  source : Nat
  target : Nat
  count : Nat
  offset : Int
  deriving Repr, DecidableEq

/-- How often a basic block was entered. -/
structure BlockCount where
  address : Nat
  count : Nat
  deriving Repr, DecidableEq

/-- One record of a file. -/
inductive Record where
  | histogram (s : Section)
  | arc (a : RawArc)
  | blocks (counts : List BlockCount)
  deriving Repr, DecidableEq

/-- Everything decoded from one file. -/
structure Recording where
  layout : Layout
  version : Int
  byteOrder : ByteOrder
  records : List Record

namespace Recording

/-- The histogram sections in the order of the file. -/
def sections (r : Recording) : List Section :=
  r.records.filterMap fun
    | .histogram s => some s
    | _ => none

def arcs (r : Recording) : List RawArc :=
  r.records.filterMap fun
    | .arc a => some a
    | _ => none

def blocks (r : Recording) : List BlockCount :=
  r.records.flatMap fun
    | .blocks counts => counts
    | _ => []

/-- The rate of the first histogram, zero without one. -/
def sampleRate (r : Recording) : Nat :=
  match r.sections with
  | [] => 0
  | s :: _ => s.histogram.sampleRate

def total (r : Recording) : Nat :=
  (r.sections.map (·.total)).sum

end Recording

end CallProfile
