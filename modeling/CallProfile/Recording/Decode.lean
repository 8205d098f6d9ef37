import CallProfile.Recording.Cursor
import CallProfile.Recording.Record

/-! # Decoding

A file is a header and records that follow each other to its end. The header is the
magic bytes, the version word and spare bytes; a record is a tag and the fields of its
kind. All histograms of a file share one rate and one dimension.
-/

namespace CallProfile

/-- Check the magic bytes and the version; the answer is the byte order and the version. -/
def readHeader (l : Layout) (data : List UInt8) : Except Fault (ByteOrder × Int) := do
  if (data.length : Int) < l.headerSize then
    throw (.truncated "header" 0 l.headerSize data.length)
  let magic := data.take l.magic.length
  if magic ≠ l.magic then throw (.malformed "bad magic" 0 (.bytes l.magic) (.bytes magic))
  let word := (data.drop l.magic.length).take l.versionWidth.bytes
  let little : Int := numberOf .little word
  let big : Int := numberOf .big word
  let unsupported (found : Int) : Fault :=
    .malformed "unsupported version" l.magic.length (.int l.version) (.int found)
  match l.byteOrder with
  | .little => if little = l.version then return (.little, little) else throw (unsupported little)
  | .big => if big = l.version then return (.big, big) else throw (unsupported big)
  | .auto =>
      if little = l.version then return (.little, little)
      else if big = l.version then return (.big, big)
      else throw (unsupported little)

/-- A text that ends at its first zero byte. Bytes beyond ASCII become the replacement
    character. -/
def paddedText (bytes : List UInt8) : String :=
  String.ofList ((bytes.takeWhile (· != 0)).map fun b =>
    if b < 0x80 then Char.ofNat b.toNat else '\uFFFD')

def readSection (l : Layout) (order : ByteOrder) (c : Cursor) :
    Except Fault (Section × Cursor) := do
  let (fixed, c₁) ← c.takeExactly l.histogramFixedSize "histogram header"
  let (dimension, c₂) ← c₁.take l.dimensionWidth "histogram header"
  let (abbreviation, c₃) ← c₂.take 1 "histogram header"
  let a := l.addressWidth.bytes
  let low := fieldOf order fixed 0 l.addressWidth
  let high := fieldOf order fixed a l.addressWidth
  let bucketCount := fieldOf order fixed (2 * a) l.bucketCountWidth
  let sampleRate := fieldOf order fixed (2 * a + l.bucketCountWidth.bytes) l.rateWidth
  if high < low then
    throw (.malformed "inverted histogram range" c.offset
      (.text s!"high_pc >= 0x{Text.hexText low}") (.text s!"0x{Text.hexText high}"))
  let (counters, c₄) ←
    c₃.takeExactly (l.counterWidth.bytes * bucketCount) "histogram counters"
  let samples := numbersOf order l.counterWidth bucketCount counters
  let histogram : Histogram :=
    { low, high, bucketCount, sampleRate
      dimension := paddedText dimension
      abbreviation := paddedText abbreviation }
  return ({ histogram
            buckets := samples.mapIdx fun index samples => { index, samples }
            offset := c.offset }, c₄)

def readArc (l : Layout) (order : ByteOrder) (c : Cursor) :
    Except Fault (RawArc × Cursor) := do
  let (fields, rest) ← c.takeExactly l.arcSize "call-graph arc"
  let a := l.addressWidth.bytes
  return ({ source := fieldOf order fields 0 l.addressWidth
            target := fieldOf order fields a l.addressWidth
            count := fieldOf order fields (2 * a) l.arcCountWidth
            offset := c.offset }, rest)

/-- Pairs of neighbours as basic-block counts. -/
def blockCounts : List Nat → List BlockCount
  | address :: count :: rest => { address, count } :: blockCounts rest
  | _ => []

def readBlocks (l : Layout) (order : ByteOrder) (c : Cursor) :
    Except Fault (List BlockCount × Cursor) := do
  let (header, c₁) ← c.takeExactly l.blockCountWidth.bytes "basic-block header"
  let count := fieldOf order header 0 l.blockCountWidth
  let (counts, c₂) ←
    c₁.takeExactly (l.addressWidth.bytes * (2 * count)) "basic-block counts"
  return (blockCounts (numbersOf order l.addressWidth (2 * count) counts), c₂)

/-- Check that a section has the rate and the dimension of the first one. -/
def checkCompatible (first : Option Histogram) (s : Section) : Except Fault Unit :=
  match first with
  | none => .ok ()
  | some h =>
      if s.histogram.sampleRate ≠ h.sampleRate then
        .error (.malformed "histogram sample rate changed" s.offset
          (.int h.sampleRate) (.int s.histogram.sampleRate))
      else if s.histogram.dimension ≠ h.dimension then
        .error (.malformed "histogram dimension changed" s.offset
          (.text h.dimension) (.text s.histogram.dimension))
      else .ok ()

/-- Read one record; `first` is the first histogram of the file, once there is one. -/
def readRecord (l : Layout) (order : ByteOrder) (first : Option Histogram) (c : Cursor) :
    Except Fault (Record × Cursor) := do
  let (bytes, c₁) ← c.takeExactly l.tagWidth.bytes "record tag"
  let tag : Int := numberOf order bytes
  if l.histogramTag.equalsInt tag then
    let (s, rest) ← readSection l order c₁
    checkCompatible first s
    return (.histogram s, rest)
  else if l.arcTag.equalsInt tag then
    let (a, rest) ← readArc l order c₁
    return (.arc a, rest)
  else if l.blockTag.equalsInt tag then
    let (counts, rest) ← readBlocks l order c₁
    return (.blocks counts, rest)
  else
    throw (.malformed "unknown record tag" c.offset
      (.tuple [l.histogramTag, l.arcTag, l.blockTag]) (.int tag))

/-- The first histogram once a record has been read. -/
def firstAfter (first : Option Histogram) (r : Record) : Option Histogram :=
  match first, r with
  | none, .histogram s => some s.histogram
  | first, _ => first

/-- Read records to the end of the file, at most `fuel` of them. -/
def readRecords (l : Layout) (order : ByteOrder) :
    (fuel : Nat) → (first : Option Histogram) → Cursor → Except Fault (List Record)
  | 0, _, _ => .error .endless
  | fuel + 1, first, c =>
      if c.remaining ≤ 0 then .ok []
      else do
        let (r, rest) ← readRecord l order first c
        return r :: (← readRecords l order fuel (firstAfter first r) rest)

/-- Decode a file. Every record starts at a place of its own when the end is reached at
    all, and a place lies between both lengths of the file, counted from its start or its
    end; this bounds the number of records. -/
def decode (l : Layout) (data : List UInt8) : Except Fault Recording := do
  let (byteOrder, version) ← readHeader l data
  let records ←
    readRecords l byteOrder (2 * data.length + 2) none ⟨data, l.headerSize⟩
  return { layout := l, version, byteOrder, records }

end CallProfile
