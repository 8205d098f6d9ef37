import CallProfile.Layout

/-! # Reading bytes

A cursor moves over the bytes of a file. Widths below zero move it back; a position
below zero counts from the end of the bytes.
-/

namespace CallProfile

/-- A place in the bytes of a file. -/
structure Cursor where
  data : List UInt8
  offset : Int

namespace Cursor

/-- The bytes from the cursor to the end. -/
def remaining (c : Cursor) : Int :=
  c.data.length - c.offset

/-- A position as a count of bytes from the start, at most all of them. -/
def position (length : Nat) (i : Int) : Nat :=
  if i < 0 then (length + i).toNat else min i.toNat length

/-- The bytes between two positions. -/
def slice (data : List UInt8) (first last : Int) : List UInt8 :=
  (data.drop (position data.length first)).take
    (position data.length last - position data.length first)

/-- Take `size` bytes for a record. -/
def take (c : Cursor) (size : Int) (record : String) :
    Except Fault (List UInt8 × Cursor) :=
  if c.remaining < size then .error (.truncated record c.offset size c.remaining)
  else .ok (slice c.data c.offset (c.offset + size), ⟨c.data, c.offset + size⟩)

/-- Take exactly `size` bytes for a record. -/
def takeExactly (c : Cursor) (size : Nat) (record : String) :
    Except Fault (List UInt8 × Cursor) := do
  let (bytes, rest) ← c.take size record
  if bytes.length = size then return (bytes, rest) else throw .unevenRecord

end Cursor

/-- The number that bytes stand for, the lowest byte first. -/
def littleValue : List UInt8 → Nat
  | [] => 0
  | b :: rest => b.toNat + 256 * littleValue rest

def numberOf (order : ByteOrder) (bytes : List UInt8) : Nat :=
  match order with
  | .big => littleValue bytes.reverse
  | _ => littleValue bytes

/-- The number in a field that starts `start` bytes into a record. -/
def fieldOf (order : ByteOrder) (bytes : List UInt8) (start : Nat) (width : Width) : Nat :=
  numberOf order ((bytes.drop start).take width.bytes)

/-- The numbers of one width that follow each other in bytes. -/
def numbersOf (order : ByteOrder) (width : Width) : (count : Nat) → List UInt8 → List Nat
  | 0, _ => []
  | count + 1, bytes =>
      numberOf order (bytes.take width.bytes) ::
        numbersOf order width count (bytes.drop width.bytes)

end CallProfile
