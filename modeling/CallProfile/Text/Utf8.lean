import CallProfile.Text.Hex

/-! # UTF-8

Bytes are decoded to characters by the syntax of RFC 3629: no overlong forms, no
surrogates, nothing above `U+10FFFF`. A refusal tells where the bytes went wrong and
how many of them are to blame.
-/

namespace CallProfile.Text

/-- What is wrong with a byte sequence. -/
inductive Utf8Defect where
  /-- No character starts with this byte. -/
  | start
  /-- A character was begun and the next byte cannot go on with it. -/
  | continuation
  /-- The bytes end inside a character. -/
  | ending
  deriving Repr, DecidableEq

/-- Where decoding stopped: the offset of the character that fails, the number of its
    bytes that were read, and the first of them. -/
structure Utf8Error where
  offset : Nat
  count : Nat
  first : UInt8
  defect : Utf8Defect
  deriving Repr, DecidableEq

namespace Utf8Error

def reason : Utf8Defect → String
  | .start => "invalid start byte"
  | .continuation => "invalid continuation byte"
  | .ending => "unexpected end of data"

/-- The message for bytes that are not UTF-8. -/
def message (e : Utf8Error) : String :=
  if e.count = 1 then
    let byte := String.ofList (paddedHexDigits 2 e.first.toNat)
    s!"'utf-8' codec can't decode byte 0x{byte} in position {e.offset}: {reason e.defect}"
  else
    let last := e.offset + e.count - 1
    s!"'utf-8' codec can't decode bytes in position {e.offset}-{last}: {reason e.defect}"

end Utf8Error

/-- For the first byte of a longer character: how many bytes follow it, what it adds to
    the code point, and the range of the byte after it. -/
def utf8Lead? (b : Nat) : Option (Nat × Nat × Nat × Nat) :=
  if 0xC2 ≤ b && b ≤ 0xDF then some (1, b - 0xC0, 0x80, 0xBF)
  else if b = 0xE0 then some (2, 0, 0xA0, 0xBF)
  else if b = 0xED then some (2, 13, 0x80, 0x9F)
  else if 0xE1 ≤ b && b ≤ 0xEF then some (2, b - 0xE0, 0x80, 0xBF)
  else if b = 0xF0 then some (3, 0, 0x90, 0xBF)
  else if 0xF1 ≤ b && b ≤ 0xF3 then some (3, b - 0xF0, 0x80, 0xBF)
  else if b = 0xF4 then some (3, 4, 0x80, 0x8F)
  else none

/-- Read `owed` continuation bytes. The answer is the code point and the bytes after the
    character, or how many bytes were read before the defect. -/
def utf8Tail : (owed value low high read : Nat) → List UInt8 →
    Except (Nat × Utf8Defect) (Nat × List UInt8)
  | 0, value, _, _, _, rest => .ok (value, rest)
  | _ + 1, _, _, _, read, [] => .error (read, .ending)
  | owed + 1, value, low, high, read, b :: rest =>
      if low ≤ b.toNat && b.toNat ≤ high then
        utf8Tail owed (value * 64 + (b.toNat - 0x80)) 0x80 0xBF (read + 1) rest
      else .error (read, .continuation)

theorem utf8Tail_rest_le {owed value low high read : Nat} {bytes rest : List UInt8} {n : Nat}
    (h : utf8Tail owed value low high read bytes = .ok (n, rest)) :
    rest.length ≤ bytes.length := by
  induction bytes generalizing owed value low high read with
  | nil => cases owed <;> simp_all [utf8Tail]
  | cons b bytes ih =>
      cases owed with
      | zero => simp [utf8Tail] at h; simp [h]
      | succ owed =>
          simp only [utf8Tail] at h
          split at h
          · exact Nat.le_succ_of_le (ih h)
          · simp at h

/-- The characters of a byte sequence that starts at `offset`. -/
def utf8DecodeFrom (offset : Nat) : List UInt8 → Except Utf8Error (List Char)
  | [] => .ok []
  | b :: rest =>
      if b < 0x80 then do
        return Char.ofNat b.toNat :: (← utf8DecodeFrom (offset + 1) rest)
      else match utf8Lead? b.toNat with
        | none => .error ⟨offset, 1, b, .start⟩
        | some (owed, value, low, high) =>
            match _h : utf8Tail owed value low high 1 rest with
            | .error (count, defect) => .error ⟨offset, count, b, defect⟩
            | .ok (n, after) => do
                return Char.ofNat n :: (← utf8DecodeFrom (offset + 1 + owed) after)
termination_by bytes => bytes.length
decreasing_by
  · simp
  · have := utf8Tail_rest_le _h
    simp; omega

def utf8Decode (bytes : List UInt8) : Except Utf8Error (List Char) :=
  utf8DecodeFrom 0 bytes

end CallProfile.Text
