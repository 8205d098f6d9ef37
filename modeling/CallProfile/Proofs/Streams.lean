import CallProfile.Proofs.Outcomes
import CallProfile.Proofs.Reading

/-! # Reading files

A file is a header and the records behind it. The header settles as a record does, and a stream of
records is read record by record, however long it is.
-/

namespace CallProfile

open scoped Whole

open Cursor

variable {l : Layout} {order : ByteOrder} {first : Option Histogram}
  {before bytes rest : List UInt8} {r : Record} {rs : List Record} {fault : Fault}

/-! ## The header -/

/-- What is read behind the magic bytes. -/
def readVersion (l : Layout) (word : List UInt8) : Except Fault (ByteOrder × Int) :=
  let little : Int := numberOf .little word
  let big : Int := numberOf .big word
  let unsupported (found : Int) : Fault :=
    .malformed "unsupported version" l.magic.length (.int l.version) (.int found)
  match l.byteOrder with
  | .little => if little = l.version then .ok (.little, little) else .error (unsupported little)
  | .big => if big = l.version then .ok (.big, big) else .error (unsupported big)
  | .auto =>
      if little = l.version then .ok (.little, little)
      else if big = l.version then .ok (.big, big)
      else .error (unsupported little)

theorem readHeader_short {data : List UInt8} (short : (data.length : Int) < l.headerSize) :
    readHeader l data = .error (.truncated "header" 0 l.headerSize data.length) := by
  rw [readHeader, if_pos short]
  rfl

theorem readHeader_magic {word spare : List UInt8} (size : word.length = l.versionWidth.bytes)
    (length : (spare.length : Int) = l.spareWidth) (more : List UInt8) :
    readHeader l (l.magic ++ (word ++ spare) ++ more) = readVersion l word := by
  have enough : ¬ ((l.magic ++ (word ++ spare) ++ more).length : Int) < l.headerSize := by
    simp only [Layout.headerSize, List.length_append, size, ← length]
    omega
  have magic : (l.magic ++ (word ++ spare) ++ more).take l.magic.length = l.magic := by simp
  have version : ((l.magic ++ (word ++ spare) ++ more).drop l.magic.length).take
      l.versionWidth.bytes = word := by simp [← size]
  rw [readHeader, if_neg enough, magic, if_neg (by simp), version]
  rfl

theorem readVersion_bytesOf {h : WrittenHeader} (fits : h.Fits l) :
    readVersion l (bytesOf h.order l.versionWidth h.version) = .ok (h.order, l.version) := by
  obtain ⟨hasOrder, version, holds, -⟩ := fits
  have read : ∀ order,
      (numberOf order (bytesOf order l.versionWidth h.version) : Int) = l.version := fun order => by
    rw [numberOf_bytesOf holds, version]
  rw [WrittenHeader.HasOrder] at hasOrder
  rw [readVersion]
  cases kind : l.byteOrder <;> rw [kind] at hasOrder
  case little => simp only [hasOrder, read, if_true]
  case big => simp only [hasOrder, read, if_true]
  case auto =>
    rcases hasOrder with order | ⟨order, differs⟩
    · simp only [order, read, if_true]
    · have other : ¬ (numberOf .little (bytesOf .big l.versionWidth h.version) : Int) =
          l.version := fun same => by
        rw [← version, Int.natCast_inj, numberOf_eq_iff (length_bytesOf ..)] at same
        exact differs same.2
      simp only [order, read, if_true, if_neg other]

theorem readVersion_outcome {word : List UInt8} (size : word.length = l.versionWidth.bytes)
    {spare : List UInt8} (length : (spare.length : Int) = l.spareWidth) :
    (∃ h : WrittenHeader, h.Fits l ∧ h.spare = spare ∧
        word = bytesOf h.order l.versionWidth h.version) ∨
      ∃ fault : Fault, fault.IsMalformed 0 ∧ readVersion l word = .error fault := by
  have written : ∀ order, (numberOf order word : Int) = l.version →
      WrittenHeader.HasOrder l { order, version := numberOf order word, spare } →
      ∃ h : WrittenHeader, h.Fits l ∧ h.spare = spare ∧
        word = bytesOf h.order l.versionWidth h.version := fun order version hasOrder =>
    ⟨{ order, version := numberOf order word, spare },
      ⟨hasOrder, version, holds_numberOf order size, length⟩, rfl,
      (bytesOf_numberOf order size).symm⟩
  have unsupported : ∀ found, (Fault.malformed "unsupported version" l.magic.length
      (.int l.version) (.int found)).IsMalformed 0 := fun found => Int.natCast_nonneg _
  simp only [readVersion]
  cases kind : l.byteOrder
  case little =>
    by_cases little : (numberOf .little word : Int) = l.version
    · exact .inl (written .little little (by rw [WrittenHeader.HasOrder, kind]))
    · exact .inr ⟨_, unsupported _, if_neg little⟩
  case big =>
    by_cases big : (numberOf .big word : Int) = l.version
    · exact .inl (written .big big (by rw [WrittenHeader.HasOrder, kind]))
    · exact .inr ⟨_, unsupported _, if_neg big⟩
  case auto =>
    by_cases little : (numberOf .little word : Int) = l.version
    · exact .inl (written .little little (by rw [WrittenHeader.HasOrder, kind]; exact .inl rfl))
    by_cases big : (numberOf .big word : Int) = l.version
    · -- had the version the same bytes in both orders, it would have been read the other way
      refine .inl (written .big big ?_)
      rw [WrittenHeader.HasOrder, kind]
      refine .inr ⟨rfl, fun same => little ?_⟩
      rw [← big, Int.natCast_inj, numberOf_eq_iff size]
      exact ⟨holds_numberOf .big size, by rw [← same, bytesOf_numberOf .big size]⟩
    · exact .inr ⟨_, unsupported _, (if_neg little).trans (if_neg big)⟩

theorem WrittenHeader.Fits.length {h : WrittenHeader} (fits : h.Fits l) :
    ((h.bytes l).length : Int) = l.headerSize := by
  simp [WrittenHeader.bytes, Layout.headerSize, ← fits.spare]
  omega

theorem readHeader_bytes {h : WrittenHeader} (fits : h.Fits l) (more : List UInt8) :
    readHeader l (h.bytes l ++ more) = .ok (h.order, l.version) := by
  rw [WrittenHeader.bytes, readHeader_magic (length_bytesOf ..) fits.spare,
    readVersion_bytesOf fits]

/-- Bytes that are long enough start with a header, or they are malformed for good. -/
theorem readHeader_outcome (whole : 0 ≤ l.spareWidth) {data : List UInt8}
    (long : l.headerSize ≤ data.length) :
    (∃ h : WrittenHeader, ∃ rest, h.Fits l ∧ data = h.bytes l ++ rest) ∨
      ∃ fault : Fault, fault.IsMalformed 0 ∧
        ∀ more, readHeader l (data ++ more) = .error fault := by
  rw [Layout.headerSize] at long
  rcases split_or_short data (Int.natCast_nonneg l.magic.length) with
    ⟨magic, rest, rfl, magicLength⟩ | short
  case inr => omega
  rw [List.length_append] at long
  by_cases same : magic = l.magic
  · subst same
    rcases split_or_short rest (Int.natCast_nonneg l.versionWidth.bytes) with
      ⟨word, rest, rfl, size⟩ | short
    case inr => omega
    rw [List.length_append] at long
    rcases split_or_short rest whole with ⟨spare, rest, rfl, length⟩ | short
    case inr => omega
    have size : word.length = l.versionWidth.bytes := by exact_mod_cast size
    rcases readVersion_outcome size length with ⟨h, fits, rfl, rfl⟩ | ⟨fault, kind, fails⟩
    · refine .inl ⟨h, rest, fits, ?_⟩
      simp only [WrittenHeader.bytes, List.append_assoc]
    · refine .inr ⟨fault, kind, fun more => ?_⟩
      rw [← fails, ← readHeader_magic size length (rest ++ more)]
      simp only [List.append_assoc]
  · have magicLength : magic.length = l.magic.length := by exact_mod_cast magicLength
    refine .inr ⟨.malformed "bad magic" 0 (.bytes l.magic) (.bytes magic), Int.le_refl _,
      fun more => ?_⟩
    have enough : ¬ ((magic ++ rest ++ more).length : Int) < l.headerSize := by
      rw [Layout.headerSize, List.length_append, List.length_append]
      omega
    have front : (magic ++ rest ++ more).take l.magic.length = magic := by
      rw [List.append_assoc, List.take_left' magicLength]
    rw [readHeader, if_neg enough, front, if_pos same]
    rfl

/-! ## Streams of records -/

/-- The records of a stream, however many there are. -/
def readAll (l : Layout) (order : ByteOrder) (first : Option Histogram)
    (before rest : List UInt8) : Except Fault (List Record) :=
  readRecords l order (rest.length + 1) first (after before rest)

theorem readRecords_nil (fuel : Nat) :
    readRecords l order (fuel + 1) first (after before []) = .ok [] := by
  rw [readRecords, if_pos (by simp)]

theorem readRecords_succ {fuel : Nat} (some : rest ≠ []) :
    readRecords l order (fuel + 1) first (after before rest) = do
      let (r, c) ← readRecord l order first (after before rest)
      return r :: (← readRecords l order fuel (firstAfter first r) c) := by
  have length := List.length_pos_iff.2 some
  rw [readRecords, if_neg (by rw [remaining_after]; omega)]

/-- Fuel for one more record than there are bytes is enough, as every record has some. -/
theorem readRecords_fuel (whole : 0 ≤ l.dimensionWidth) {fuel fuel' : Nat}
    (enough : rest.length < fuel) (enough' : rest.length < fuel') :
    readRecords l order fuel first (after before rest) =
      readRecords l order fuel' first (after before rest) := by
  -- what is left after a record is shorter, and so is the fuel that is left
  induction fuel generalizing fuel' first before rest with
  | zero => omega
  | succ fuel ih =>
      obtain ⟨fuel', rfl⟩ : ∃ n, fuel' = n + 1 := ⟨fuel' - 1, by omega⟩
      by_cases some : rest = []
      · rw [some, readRecords_nil, readRecords_nil]
      rw [readRecords_succ some, readRecords_succ some]
      cases readRecord_settles whole order first before rest with
      | found r bytes more split holds reads =>
          subst split
          have pos := holds.length_pos
          rw [List.length_append] at enough enough'
          have less : more.length < fuel := by omega
          have less' : more.length < fuel' := by omega
          rw [reads]
          simp only [bind, Except.bind]
          rw [ih less less']
      | malformed fault kind stays =>
          have fails := stays []
          rw [List.append_nil] at fails
          rw [fails]
          rfl
      | truncated fault kind fails =>
          rw [fails]
          rfl

theorem readAll_nil : readAll l order first before [] = .ok [] :=
  readRecords_nil 0

theorem readAll_error (fails : readRecord l order first (after before rest) = .error fault)
    (some : rest ≠ []) : readAll l order first before rest = .error fault := by
  rw [readAll, readRecords_succ some, fails]
  rfl

theorem readAll_cons (whole : 0 ≤ l.dimensionWidth)
    (reads : readRecord l order first (after before (bytes ++ rest)) =
      .ok (r, after (before ++ bytes) rest)) (some : 0 < bytes.length) :
    readAll l order first before (bytes ++ rest) =
      (readAll l order (firstAfter first r) (before ++ bytes) rest).map (r :: ·) := by
  have filled : bytes ++ rest ≠ [] := by
    simp [List.length_pos_iff.1 some]
  have enough : rest.length < (bytes ++ rest).length := by
    rw [List.length_append]
    omega
  rw [readAll, readRecords_succ filled, reads]
  simp only [bind, Except.bind]
  rw [readRecords_fuel whole enough (Nat.lt_succ_self _), ← readAll]
  cases readAll l order (firstAfter first r) (before ++ bytes) rest <;> rfl

/-- A stream ends, or a record and a stream follow, or there is a fault: one of content, which
    stays, or one of missing bytes. -/
theorem stream_induction (whole : 0 ≤ l.dimensionWidth) (order : ByteOrder)
    {motive : Option Histogram → List UInt8 → List UInt8 → Prop}
    (nil : ∀ first before, motive first before [])
    (cons : ∀ first before r bytes rest, IsRecord l order first before.length r bytes →
      (∀ more, readAll l order first before (bytes ++ more) =
        (readAll l order (firstAfter first r) (before ++ bytes) more).map (r :: ·)) →
      motive (firstAfter first r) (before ++ bytes) rest → motive first before (bytes ++ rest))
    (malformed : ∀ first before rest (fault : Fault), fault.IsMalformed before.length →
      (∀ more, readAll l order first before (rest ++ more) = .error fault) →
      motive first before rest)
    (truncated : ∀ first before rest (fault : Fault),
      fault.IsTruncated before.length (before ++ rest).length →
      readAll l order first before rest = .error fault → motive first before rest)
    (first : Option Histogram) (before rest : List UInt8) : motive first before rest := by
  -- a record takes any number of bytes but none, so the induction is on how many there are
  generalize size : rest.length = n
  induction n using Nat.strongRecOn generalizing first before rest with
  | ind n ih =>
      by_cases some : rest = []
      · rw [some]
        exact nil first before
      cases readRecord_settles whole order first before rest with
      | found r bytes more split holds reads =>
          subst split
          have pos := holds.length_pos
          rw [List.length_append] at size
          exact cons first before r bytes more holds
            (fun more => readAll_cons whole (reads more) pos)
            (ih more.length (by omega) _ _ more rfl)
      | malformed fault kind stays =>
          refine malformed first before rest fault kind fun more => ?_
          exact readAll_error (stays more) (List.append_ne_nil_of_left_ne_nil some more)
      | truncated fault kind fails =>
          exact truncated first before rest fault kind (readAll_error fails some)

/-! ## Files -/

/-- A file is decoded by its header and the stream behind it. -/
theorem decode_bytes (whole : 0 ≤ l.dimensionWidth) {h : WrittenHeader} (fits : h.Fits l)
    (rest : List UInt8) :
    decode l (h.bytes l ++ rest) =
      (readAll l h.order none (h.bytes l) rest).map fun records =>
        { layout := l, version := l.version, byteOrder := h.order, records } := by
  have place : (⟨h.bytes l ++ rest, l.headerSize⟩ : Cursor) = after (h.bytes l) rest := by
    rw [after, fits.length]
  have enough : rest.length < 2 * (h.bytes l ++ rest).length + 2 := by
    rw [List.length_append]
    omega
  rw [decode, readHeader_bytes fits]
  simp only [bind, Except.bind, place]
  rw [readRecords_fuel whole enough (Nat.lt_succ_self _), ← readAll]
  cases readAll l h.order none (h.bytes l) rest <;> rfl

theorem error_of_stays {α : Type} {read : List UInt8 → Except Fault α} {data : List UInt8}
    (stays : ∀ more, read (data ++ more) = .error fault) : read data = .error fault := by
  rw [← stays [], List.append_nil]

/-- What the start of a file comes to. -/
inductive Starts (l : Layout) (data : List UInt8) : Prop where
  | short (missing : (data.length : Int) < l.headerSize)
      (fails : decode l data = .error (.truncated "header" 0 l.headerSize data.length))
  | malformed (fault : Fault) (kind : fault.IsMalformed 0)
      (stays : ∀ more, decode l (data ++ more) = .error fault)
  | header (h : WrittenHeader) (rest : List UInt8) (fits : h.Fits l)
      (split : data = h.bytes l ++ rest)

theorem decode_starts (whole : 0 ≤ l.spareWidth) (data : List UInt8) : Starts l data := by
  rcases Int.lt_or_le data.length l.headerSize with short | long
  · refine .short short ?_
    rw [decode, readHeader_short short]
    rfl
  rcases readHeader_outcome whole long with ⟨h, rest, fits, split⟩ | ⟨fault, kind, stays⟩
  · exact .header h rest fits split
  · refine .malformed fault kind fun more => ?_
    rw [decode, stays]
    rfl

/-- What has been decoded is a header and a stream. -/
theorem stream_of_decode (spare : 0 ≤ l.spareWidth) (dimension : 0 ≤ l.dimensionWidth)
    {data : List UInt8} {r : Recording} (reads : decode l data = .ok r) :
    ∃ h : WrittenHeader, ∃ rest rs, h.Fits l ∧ data = h.bytes l ++ rest ∧
      readAll l h.order none (h.bytes l) rest = .ok rs ∧
      r = { layout := l, version := l.version, byteOrder := h.order, records := rs } := by
  cases decode_starts spare data with
  | short missing fails => exact absurd fails (ne_error_of_ok reads)
  | malformed fault kind stays => exact absurd (error_of_stays stays) (ne_error_of_ok reads)
  | header h rest fits split =>
      subst split
      rw [decode_bytes dimension fits] at reads
      obtain ⟨rs, stream, rfl⟩ := map_eq_ok_iff.1 reads
      exact ⟨h, rest, rs, fits, rfl, stream, rfl⟩

end CallProfile
