import CallProfile.Recording.Record
import CallProfile.Symbol.Table
import CallProfile.Tally
import CallProfile.Times

/-! # Attribution of samples

Every bucket that holds samples belongs to the symbol at its first address. The samples
of buckets where no symbol is are summed up, with a diagnostic for each of them. Buckets
without samples do not count.
-/

namespace CallProfile

open scoped Whole

/-- A bucket that holds samples, with its first address. -/
structure Reading where
  address : Int
  bucket : Bucket

/-- The buckets of a section that hold samples. -/
def Section.readings (s : Section) : List Reading :=
  (s.buckets.filter (·.samples ≠ 0)).map fun b =>
    { address := s.histogram.bucketAddress b.index, bucket := b }

def Reading.diagnostic (r : Reading) : Diagnostic where
  address := r.address
  kind := "bucket"
  count := r.bucket.samples
  detail := some s!"bucket {r.bucket.index}"

/-- Samples attributed to symbols. -/
structure Attribution where
  /-- The samples of each symbol. -/
  samples : Tally Symbol Nat
  /-- The buckets of each symbol. -/
  buckets : Tally Symbol Nat
  /-- The samples where no symbol is. -/
  unattributed : Nat
  sampleRate : Nat
  diagnostics : List Diagnostic

namespace Attribution

/-- The attribution of readings with the symbols at their addresses. -/
def ofLocated (rate : Nat) (located : List (Reading × Option Symbol)) : Attribution :=
  let found := located.filterMap fun l => l.2.map fun s => (l.1, s)
  let lost := (located.filter (·.2.isNone)).map (·.1)
  { samples := Tally.ofList (found.map fun l => (l.2, l.1.bucket.samples))
    buckets := Tally.ofList (found.map fun l => (l.2, 1))
    unattributed := (lost.map (·.bucket.samples)).sum
    sampleRate := rate
    diagnostics := lost.map (·.diagnostic) }

/-- The attribution of histogram sections. The rate is that of the first one. -/
def ofSections (sections : List Section) (table : SymbolTable) : Attribution :=
  let readings := sections.flatMap (·.readings)
  let rate := (sections.head?.map (·.histogram.sampleRate)).getD 0
  ofLocated rate (readings.map fun r => (r, table.resolve r.address))

def attributed (a : Attribution) : Nat :=
  a.samples.total

def total (a : Attribution) : Nat :=
  a.attributed + a.unattributed

/-- The sources of the symbols, in the order in which they came. -/
def sources (a : Attribution) : List (Option String) :=
  (a.samples.keys.map (·.source)).eraseDups

/-- The samples of the symbols of one source. -/
def inFile (a : Attribution) (source : Option String) : List (Symbol × Nat) :=
  a.samples.entries.filter (·.1.source = source)

/-- The samples of the symbols by source. -/
def files (a : Attribution) : List (Option String × List (Symbol × Nat)) :=
  a.sources.map fun source => (source, a.inFile source)

def fileTotal (a : Attribution) (source : Option String) : Nat :=
  ((a.inFile source).map (·.2)).sum

/-- What percentage of the attributed samples a symbol has. -/
def percentage {α : Type} [Times α] (a : Attribution) (s : Symbol) : α :=
  Times.percentage (a.samples.count s) a.attributed

end Attribution

end CallProfile
