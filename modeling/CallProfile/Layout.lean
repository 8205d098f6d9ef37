import CallProfile.Datum.Number
import CallProfile.Fault

/-! # Layouts of profile files

A layout tells every width and constant that decoding needs. Two layouts have names;
any other is one of them with some fields replaced.
-/

namespace CallProfile

/-- The bytes that a number in a profile takes. -/
inductive Width where
  | one
  | two
  | four
  | eight
  deriving Repr, DecidableEq

def Width.bytes : Width → Nat
  | .one => 1
  | .two => 2
  | .four => 4
  | .eight => 8

theorem Width.bytes_pos (w : Width) : 0 < w.bytes := by
  cases w <;> decide

/-- The order of the bytes of a number, or that the version word tells it. -/
inductive ByteOrder where
  | little
  | big
  | auto
  deriving Repr, DecidableEq

def ByteOrder.name : ByteOrder → String
  | .little => "little"
  | .big => "big"
  | .auto => "auto"

/-- The layout of a profile file. The tags may be any values; only one that is a whole
    number can ever be found in a file. -/
structure Layout where
  name : String
  /-- The bytes at the start of every file. -/
  magic : List UInt8
  version : Int
  versionWidth : Width
  /-- Bytes without meaning after the version word. -/
  spareWidth : Int
  byteOrder : ByteOrder
  addressWidth : Width
  tagWidth : Width
  histogramTag : Datum
  arcTag : Datum
  blockTag : Datum
  bucketCountWidth : Width
  rateWidth : Width
  /-- The bytes of the unit name. One more byte with its abbreviation follows. -/
  dimensionWidth : Int
  counterWidth : Width
  arcCountWidth : Width
  blockCountWidth : Width

namespace Layout

/-- The bytes before the first record. -/
def headerSize (l : Layout) : Int :=
  l.magic.length + l.versionWidth.bytes + l.spareWidth

def histogramFixedSize (l : Layout) : Nat :=
  2 * l.addressWidth.bytes + l.bucketCountWidth.bytes + l.rateWidth.bytes

/-- The bytes of a histogram record before its counters. -/
def histogramHeaderSize (l : Layout) : Int :=
  l.histogramFixedSize + l.dimensionWidth + 1

def arcSize (l : Layout) : Nat :=
  2 * l.addressWidth.bytes + l.arcCountWidth.bytes

def blockSize (l : Layout) : Nat :=
  2 * l.addressWidth.bytes

/-- The layout of 64-bit programs. -/
def wide : Layout where
  name := "gnu-v1"
  magic := [0x67, 0x6D, 0x6F, 0x6E]
  version := 1
  versionWidth := .four
  spareWidth := 12
  byteOrder := .auto
  addressWidth := .eight
  tagWidth := .one
  histogramTag := .int 0
  arcTag := .int 1
  blockTag := .int 2
  bucketCountWidth := .four
  rateWidth := .four
  dimensionWidth := 15
  counterWidth := .two
  arcCountWidth := .four
  blockCountWidth := .four

/-- The layout of 32-bit programs. -/
def narrow : Layout :=
  { wide with name := "gnu-v1-32", addressWidth := .four }

def named? (name : String) : Option Layout :=
  if name = "gnu-v1" then some wide
  else if name = "gnu-v1-32" then some narrow
  else none

/-- The fields that can be replaced. -/
def fieldNames : List String :=
  ["magic", "version", "version_width", "spare_width", "byte_order", "address_width",
    "tag_width", "hist_tag", "arc_tag", "bb_tag", "hist_size_width", "hist_rate_width",
    "dimension_width", "counter_width", "arc_count_width", "bb_ncounts_width"]

def given? (field : String) (fields : List (String × Datum)) : Option Datum :=
  (fields.find? (·.1 = field)).map (·.2)

/-- A width given for a field, or else the width it has. -/
def widthOr (width : Width) (field : String) (fields : List (String × Datum)) :
    Except Fault Width :=
  match given? field fields with
  | none => .ok width
  | some d =>
      if d.equalsInt 1 then .ok .one
      else if d.equalsInt 2 then .ok .two
      else if d.equalsInt 4 then .ok .four
      else if d.equalsInt 8 then .ok .eight
      else .error (.width field d)

def intOr (n : Int) (field : String) (fields : List (String × Datum)) : Except Fault Int :=
  match given? field fields with
  | none => .ok n
  | some d =>
      match d.int? with
      | some n => .ok n
      | none => .error .wrongType

def magicOr (magic : List UInt8) (fields : List (String × Datum)) :
    Except Fault (List UInt8) :=
  match given? "magic" fields with
  | none => .ok magic
  | some (.bytes b) => .ok b
  | some _ => .error .wrongType

def byteOrderOr (order : ByteOrder) (fields : List (String × Datum)) :
    Except Fault ByteOrder :=
  match given? "byte_order" fields with
  | none => .ok order
  | some (.text "little") => .ok .little
  | some (.text "big") => .ok .big
  | some (.text "auto") => .ok .auto
  | some d => .error (.byteOrder d)

/-- Replace fields of a layout. The values are checked in the order of the fields, after
    their names. -/
def replace (l : Layout) (fields : List (String × Datum)) : Except Fault Layout := do
  if fields.any fun f => !fieldNames.contains f.1 then throw .wrongType
  return {
    name := l.name
    magic := ← magicOr l.magic fields
    version := ← intOr l.version "version" fields
    versionWidth := ← widthOr l.versionWidth "version_width" fields
    spareWidth := ← intOr l.spareWidth "spare_width" fields
    byteOrder := ← byteOrderOr l.byteOrder fields
    addressWidth := ← widthOr l.addressWidth "address_width" fields
    tagWidth := ← widthOr l.tagWidth "tag_width" fields
    histogramTag := (given? "hist_tag" fields).getD l.histogramTag
    arcTag := (given? "arc_tag" fields).getD l.arcTag
    blockTag := (given? "bb_tag" fields).getD l.blockTag
    bucketCountWidth := ← widthOr l.bucketCountWidth "hist_size_width" fields
    rateWidth := ← widthOr l.rateWidth "hist_rate_width" fields
    dimensionWidth := ← intOr l.dimensionWidth "dimension_width" fields
    counterWidth := ← widthOr l.counterWidth "counter_width" fields
    arcCountWidth := ← widthOr l.arcCountWidth "arc_count_width" fields
    blockCountWidth := ← widthOr l.blockCountWidth "bb_ncounts_width" fields }

/-- The named layout with some fields replaced. -/
def select (name : Datum) (fields : List (String × Datum)) : Except Fault Layout := do
  if (given? "name" fields).isSome then throw .wrongType
  match name with
  | .text s =>
      match named? s with
      | some l => l.replace fields
      | none => throw (.unknownLayout name)
  | .list _ => throw .wrongType
  | .map _ => throw .wrongType
  | _ => throw (.unknownLayout name)

end Layout

end CallProfile
