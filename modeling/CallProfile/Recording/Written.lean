import CallProfile.Recording.Decode

/-! # Written files

What a file holds, byte by byte: a header, then records that follow each other, each of them a
tag and the bytes of its fields. Nothing is read here; a file is written from its parts, and the
places of its records follow from the sizes that the layout gives them.
-/

namespace CallProfile

open scoped Whole

/-- Whether a number fits into a width. -/
def Width.Holds (w : Width) (n : Nat) : Prop :=
  n < 256 ^ w.bytes

instance (w : Width) (n : Nat) : Decidable (w.Holds n) :=
  inferInstanceAs (Decidable (n < 256 ^ w.bytes))

/-- The bytes of a number, the lowest first. -/
def littleBytes : (count : Nat) → Nat → List UInt8
  | 0, _ => []
  | count + 1, n => UInt8.ofNat (n % 256) :: littleBytes count (n / 256)

def bytesOf (order : ByteOrder) (w : Width) (n : Nat) : List UInt8 :=
  match order with
  | .big => (littleBytes w.bytes n).reverse
  | _ => littleBytes w.bytes n

def bytesOfAll (order : ByteOrder) (w : Width) (numbers : List Nat) : List UInt8 :=
  numbers.flatMap (bytesOf order w)

/-- The bytes of a text of ASCII characters. -/
def asciiBytes (text : String) : List UInt8 :=
  text.toList.map fun c => UInt8.ofNat c.toNat

/-- Whether a text has only ASCII characters, and none that ends it. -/
def IsAscii (text : String) : Prop :=
  ∀ c ∈ text.toList, 0 < c.toNat ∧ c.toNat < 128

/-- A histogram as it is written, its texts as bytes. -/
structure WrittenHistogram where
  low : Nat
  high : Nat
  rate : Nat
  dimension : List UInt8
  abbreviation : UInt8
  counters : List Nat
  deriving DecidableEq

/-- A record as it is written. -/
inductive Written where
  | histogram (h : WrittenHistogram)
  | arc (source target count : Nat)
  | blocks (counts : List BlockCount)
  deriving DecidableEq

/-- The tags of the kinds of records, as numbers. -/
structure Tags where
  histogram : Nat
  arc : Nat
  blocks : Nat

/-- A layout whose widths are sizes and whose tags are numbers that fit and differ. -/
structure Layout.IsRegular (l : Layout) (t : Tags) : Prop where
  spare : 0 ≤ l.spareWidth
  dimension : 0 ≤ l.dimensionWidth
  histogram_iff : ∀ n, l.histogramTag.equalsInt n = true ↔ n = t.histogram
  arc_iff : ∀ n, l.arcTag.equalsInt n = true ↔ n = t.arc
  blocks_iff : ∀ n, l.blockTag.equalsInt n = true ↔ n = t.blocks
  holds_histogram : l.tagWidth.Holds t.histogram
  holds_arc : l.tagWidth.Holds t.arc
  holds_blocks : l.tagWidth.Holds t.blocks
  histogram_ne_arc : t.histogram ≠ t.arc
  histogram_ne_blocks : t.histogram ≠ t.blocks
  arc_ne_blocks : t.arc ≠ t.blocks

namespace WrittenHistogram

/-- The bytes of the fixed fields. -/
def fixedBytes (l : Layout) (order : ByteOrder) (low high count rate : Nat) : List UInt8 :=
  bytesOf order l.addressWidth low ++ (bytesOf order l.addressWidth high ++
    (bytesOf order l.bucketCountWidth count ++ bytesOf order l.rateWidth rate))

/-- The bytes after the tag. -/
def bytes (l : Layout) (order : ByteOrder) (h : WrittenHistogram) : List UInt8 :=
  fixedBytes l order h.low h.high h.counters.length h.rate ++ (h.dimension ++
    ([h.abbreviation] ++ bytesOfAll order l.counterWidth h.counters))

/-- Whether every field fits and the range is not inverted. -/
structure Fits (l : Layout) (h : WrittenHistogram) : Prop where
  low_le_high : h.low ≤ h.high
  high : l.addressWidth.Holds h.high
  count : l.bucketCountWidth.Holds h.counters.length
  rate : l.rateWidth.Holds h.rate
  dimension : (h.dimension.length : Int) = l.dimensionWidth
  counters : ∀ n ∈ h.counters, l.counterWidth.Holds n

theorem fits_iff (l : Layout) (h : WrittenHistogram) :
    h.Fits l ↔ h.low ≤ h.high ∧ l.addressWidth.Holds h.high ∧
      l.bucketCountWidth.Holds h.counters.length ∧ l.rateWidth.Holds h.rate ∧
      (h.dimension.length : Int) = l.dimensionWidth ∧ ∀ n ∈ h.counters, l.counterWidth.Holds n :=
  ⟨fun ⟨order, high, count, rate, dimension, counters⟩ =>
    ⟨order, high, count, rate, dimension, counters⟩,
  fun ⟨order, high, count, rate, dimension, counters⟩ =>
    ⟨order, high, count, rate, dimension, counters⟩⟩

instance (l : Layout) (h : WrittenHistogram) : Decidable (h.Fits l) :=
  decidable_of_iff _ (fits_iff l h).symm

/-- Whether two histograms count in the same unit. -/
def SameUnit (first h : WrittenHistogram) : Prop :=
  h.rate = first.rate ∧ paddedText h.dimension = paddedText first.dimension

/-- The section that a histogram is, with the place of its first field. -/
def toSection (offset : Int) (h : WrittenHistogram) : Section where
  histogram :=
    { low := h.low, high := h.high, bucketCount := h.counters.length, sampleRate := h.rate
      dimension := paddedText h.dimension, abbreviation := paddedText [h.abbreviation] }
  buckets := h.counters.mapIdx fun index samples => { index, samples }
  offset

end WrittenHistogram

namespace Written

def tag (t : Tags) : Written → Nat
  | .histogram _ => t.histogram
  | .arc .. => t.arc
  | .blocks _ => t.blocks

/-- The bytes after the tag. -/
def body (l : Layout) (order : ByteOrder) : Written → List UInt8
  | .histogram h => h.bytes l order
  | .arc source target count =>
      bytesOf order l.addressWidth source ++ (bytesOf order l.addressWidth target ++
        bytesOf order l.arcCountWidth count)
  | .blocks counts =>
      bytesOf order l.blockCountWidth counts.length ++
        bytesOfAll order l.addressWidth (counts.flatMap fun c => [c.address, c.count])

def bytes (l : Layout) (t : Tags) (order : ByteOrder) (w : Written) : List UInt8 :=
  bytesOf order l.tagWidth (w.tag t) ++ w.body l order

/-- The number of bytes after the tag. -/
def size (l : Layout) : Written → Int
  | .histogram h => l.histogramHeaderSize + l.counterWidth.bytes * h.counters.length
  | .arc .. => l.arcSize
  | .blocks counts => l.blockCountWidth.bytes + counts.length * l.blockSize

/-- Whether every field fits into its width. -/
def Fits (l : Layout) : Written → Prop
  | .histogram h => h.Fits l
  | .arc source target count =>
      l.addressWidth.Holds source ∧ l.addressWidth.Holds target ∧ l.arcCountWidth.Holds count
  | .blocks counts =>
      l.blockCountWidth.Holds counts.length ∧
        ∀ c ∈ counts, l.addressWidth.Holds c.address ∧ l.addressWidth.Holds c.count

instance (l : Layout) : (w : Written) → Decidable (w.Fits l)
  | .histogram h => inferInstanceAs (Decidable (h.Fits l))
  | .arc source target count =>
      inferInstanceAs (Decidable (l.addressWidth.Holds source ∧ l.addressWidth.Holds target ∧
        l.arcCountWidth.Holds count))
  | .blocks counts =>
      inferInstanceAs (Decidable (l.blockCountWidth.Holds counts.length ∧
        ∀ c ∈ counts, l.addressWidth.Holds c.address ∧ l.addressWidth.Holds c.count))

/-- The record, with the place of its first field. -/
def toRecord (offset : Int) : Written → Record
  | .histogram h => .histogram (h.toSection offset)
  | .arc source target count => .arc { source, target, count, offset }
  | .blocks counts => .blocks counts

/-- The records of a stream that starts at a place. -/
def toRecords (l : Layout) (start : Int) : List Written → List Record
  | [] => []
  | w :: ws =>
      let offset := start + l.tagWidth.bytes
      w.toRecord offset :: toRecords l (offset + w.size l) ws

def histograms (ws : List Written) : List WrittenHistogram :=
  ws.filterMap fun
    | .histogram h => some h
    | _ => none

/-- Whether all histograms of a stream count in the unit of the first one. -/
def SameUnits (ws : List Written) : Prop :=
  ∀ first ∈ (histograms ws).head?, ∀ h ∈ histograms ws, first.SameUnit h

end Written

/-- The parts of a header. -/
structure WrittenHeader where
  order : ByteOrder
  version : Nat
  spare : List UInt8

namespace WrittenHeader

def bytes (l : Layout) (h : WrittenHeader) : List UInt8 :=
  l.magic ++ (bytesOf h.order l.versionWidth h.version ++ h.spare)

/-- Whether a header in a byte order can have been written. When the version word is to tell the
    order, one that can be read either way tells that the lowest byte comes first. -/
def HasOrder (l : Layout) (h : WrittenHeader) : Prop :=
  match l.byteOrder with
  | .auto => h.order = .little ∨ h.order = .big ∧
      bytesOf .big l.versionWidth h.version ≠ bytesOf .little l.versionWidth h.version
  | order => h.order = order

/-- Whether the parts of a header agree with a layout. -/
structure Fits (l : Layout) (h : WrittenHeader) : Prop where
  order : h.HasOrder l
  version : (h.version : Int) = l.version
  holds : l.versionWidth.Holds h.version
  spare : (h.spare.length : Int) = l.spareWidth

end WrittenHeader

/-- The parts of a file. -/
structure WrittenFile where
  header : WrittenHeader
  stream : List Written

namespace WrittenFile

def bytes (l : Layout) (t : Tags) (f : WrittenFile) : List UInt8 :=
  f.header.bytes l ++ f.stream.flatMap (·.bytes l t f.header.order)

/-- Whether the parts of a file agree with a layout. -/
structure Fits (l : Layout) (f : WrittenFile) : Prop where
  header : f.header.Fits l
  stream : ∀ w ∈ f.stream, w.Fits l
  units : Written.SameUnits f.stream

/-- What a file holds. -/
def toRecording (l : Layout) (f : WrittenFile) : Recording where
  layout := l
  version := l.version
  byteOrder := f.header.order
  records := Written.toRecords l l.headerSize f.stream

end WrittenFile

end CallProfile
