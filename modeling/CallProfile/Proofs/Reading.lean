import CallProfile.Proofs.Bytes

/-! # Reading records

Reading at a place comes to one of three things: a value whose bytes stand there, whatever
follows them; a fault that no further bytes can mend; or bytes are missing. Each reader is shown to
settle so, and to read what is written.
-/

namespace CallProfile

open scoped Whole

/-- Whether a fault is one of content, not before a place. -/
def Fault.IsMalformed (start : Int) : Fault → Prop
  | .malformed _ offset _ _ => start ≤ offset
  | _ => False

/-- Whether a fault says how many bytes are missing behind a place, not before another. -/
def Fault.IsTruncated (start : Int) (length : Nat) : Fault → Prop
  | .truncated _ offset expected available =>
      start ≤ offset ∧ 0 ≤ available ∧ available < expected ∧ offset + available = length
  | _ => False

variable {α β : Type} {l : Layout} {order : ByteOrder} {before bytes rest : List UInt8} {size : Nat}
  {record : String}

namespace Cursor

/-- The cursor between some bytes of a file and the others. -/
def after (before rest : List UInt8) : Cursor :=
  ⟨before ++ rest, before.length⟩

@[simp] theorem offset_after (before rest : List UInt8) :
    (after before rest).offset = before.length :=
  rfl

@[simp] theorem remaining_after (before rest : List UInt8) :
    (after before rest).remaining = rest.length := by
  simp only [remaining, after, List.length_append]
  omega

theorem position_natCast {length n : Nat} (below : n ≤ length) : position length n = n := by
  have start : ¬ (n : Int) < 0 := by omega
  simp [position, start, below]

theorem take_after {n : Int} (length : (bytes.length : Int) = n) (rest : List UInt8) :
    (after before (bytes ++ rest)).take n record = .ok (bytes, after (before ++ bytes) rest) := by
  subst length
  have enough : ¬ (after before (bytes ++ rest)).remaining < bytes.length := by
    rw [remaining_after, List.length_append]
    omega
  have whole : slice (before ++ (bytes ++ rest)) before.length (before.length + bytes.length) =
      bytes := by
    rw [slice, ← Int.natCast_add, position_natCast (by simp), position_natCast (by simp)]
    simp
  rw [take, if_neg enough]
  simp [after, whole]

theorem take_short {n : Int} (short : (rest.length : Int) < n) :
    (after before rest).take n record =
      .error (.truncated record before.length n rest.length) := by
  rw [take, remaining_after, if_pos short, offset_after]

theorem takeExactly_after (length : bytes.length = size) (rest : List UInt8) :
    (after before (bytes ++ rest)).takeExactly size record =
      .ok (bytes, after (before ++ bytes) rest) := by
  rw [takeExactly, take_after (by rw [length])]
  simp [bind, Except.bind, length, pure, Except.pure]

theorem takeExactly_short (short : (rest.length : Int) < size) :
    (after before rest).takeExactly size record =
      .error (.truncated record before.length size rest.length) := by
  rw [takeExactly, take_short short]
  rfl

end Cursor

open Cursor

/-- What reading at a place comes to, with faults not before `start`. -/
inductive Settles (start : Int) (read : Cursor → Except Fault (α × Cursor))
    (written : α → List UInt8 → Prop) (before rest : List UInt8) : Prop where
  | found (a : α) (bytes more : List UInt8) (split : rest = bytes ++ more)
      (holds : written a bytes)
      (reads : ∀ more, read (after before (bytes ++ more)) = .ok (a, after (before ++ bytes) more))
  | malformed (fault : Fault) (kind : fault.IsMalformed start)
      (stays : ∀ more, read (after before (rest ++ more)) = .error fault)
  | truncated (fault : Fault) (kind : fault.IsTruncated start (before ++ rest).length)
      (fails : read (after before rest) = .error fault)

theorem Fault.IsMalformed.mono {fault : Fault} {start start' : Int}
    (kind : fault.IsMalformed start) (below : start' ≤ start) : fault.IsMalformed start' := by
  cases fault <;> simp only [Fault.IsMalformed] at kind ⊢
  exact Int.le_trans below kind

theorem Fault.IsTruncated.mono {fault : Fault} {start start' : Int} {length : Nat}
    (kind : fault.IsTruncated start length) (below : start' ≤ start) :
    fault.IsTruncated start' length := by
  cases fault <;> simp only [Fault.IsTruncated] at kind ⊢
  exact ⟨Int.le_trans below kind.1, kind.2⟩

namespace Settles

variable {start start' : Int} {read read' : Cursor → Except Fault (α × Cursor)}
  {written : α → List UInt8 → Prop} {writtenNext : β → List UInt8 → Prop}

theorem congr (same : ∀ rest, read (after before rest) = read' (after before rest))
    (settles : Settles start read' written before rest) :
    Settles start read written before rest := by
  cases settles with
  | found a bytes more split holds reads =>
      exact .found a bytes more split holds fun more => (same _).trans (reads more)
  | malformed fault kind stays =>
      exact .malformed fault kind fun more => (same _).trans (stays more)
  | truncated fault kind fails => exact .truncated fault kind ((same _).trans fails)

theorem mono (settles : Settles start read written before rest) (below : start' ≤ start) :
    Settles start' read written before rest := by
  cases settles with
  | found a bytes more split holds reads => exact .found a bytes more split holds reads
  | malformed fault kind stays => exact .malformed fault (kind.mono below) stays
  | truncated fault kind fails => exact .truncated fault (kind.mono below) fails

theorem short_behind {n : Int} (record : String) (bytes : List UInt8)
    (place : start ≤ before.length) (short : (rest.length : Int) < n)
    (fails : read (after before (bytes ++ rest)) =
      .error (.truncated record (before ++ bytes).length n rest.length)) :
    Settles start read written before (bytes ++ rest) := by
  refine .truncated _ ?_ fails
  simp only [Fault.IsTruncated, List.length_append]
  omega

theorem short {n : Int} (record : String) (place : start ≤ before.length)
    (short : (rest.length : Int) < n)
    (fails : read (after before rest) =
      .error (.truncated record before.length n rest.length)) :
    Settles start read written before rest := by
  refine short_behind record [] place short ?_
  rw [List.nil_append, List.append_nil, fails]

theorem behind (same : ∀ more, read (after before (bytes ++ more)) =
      read' (after (before ++ bytes) more))
    (settles : Settles start read' (fun a more => written a (bytes ++ more)) (before ++ bytes)
      rest) :
    Settles start read written before (bytes ++ rest) := by
  cases settles with
  | found a bytes' more split holds reads =>
      subst split
      refine .found a (bytes ++ bytes') more (List.append_assoc ..).symm holds fun more => ?_
      rw [List.append_assoc, same, reads, List.append_assoc]
  | malformed fault kind stays =>
      refine .malformed fault kind fun more => ?_
      rw [List.append_assoc, same, stays]
  | truncated fault kind fails =>
      rw [List.append_assoc] at kind
      exact .truncated fault kind ((same _).trans fails)

theorem andThen (look : α → Except Fault Unit) (make : α → β)
    (settles : Settles start read written before rest)
    (accepts : ∀ a bytes, written a bytes → look a = .ok () → writtenNext (make a) bytes)
    (rejects : ∀ a bytes, written a bytes → ∀ fault, look a = .error fault →
      fault.IsMalformed start) :
    Settles start (fun c => do let (a, c) ← read c; look a; return (make a, c)) writtenNext
      before rest := by
  cases settles with
  | malformed fault kind stays =>
      refine .malformed fault kind fun more => ?_
      simp only [stays more]
      rfl
  | truncated fault kind fails =>
      refine .truncated fault kind ?_
      simp only [fails]
      rfl
  | found a bytes more split holds reads =>
      subst split
      cases seen : look a with
      | ok _ =>
          refine .found (make a) bytes more rfl (accepts a bytes holds seen) fun more => ?_
          simp only [reads, bind, Except.bind, seen]
          rfl
      | error fault =>
          refine .malformed fault (rejects a bytes holds fault seen) fun more' => ?_
          rw [List.append_assoc]
          simp only [reads, bind, Except.bind, seen]

end Settles

theorem split_or_short (rest : List UInt8) {size : Int} (whole : 0 ≤ size) :
    (∃ bytes more, rest = bytes ++ more ∧ (bytes.length : Int) = size) ∨
      (rest.length : Int) < size := by
  obtain ⟨count, rfl⟩ := Int.eq_ofNat_of_zero_le whole
  rcases Nat.lt_or_ge rest.length count with short | enough
  · exact .inr (by exact_mod_cast short)
  · exact .inl ⟨rest.take count, rest.drop count, by simp, by simp [enough]⟩

/-! ## Arcs -/

theorem readArc_after {source target count : Nat} (fits : (Written.arc source target count).Fits l)
    (more : List UInt8) :
    readArc l order (after before ((Written.arc source target count).body l order ++ more)) =
      .ok ({ source, target, count, offset := before.length },
        after (before ++ (Written.arc source target count).body l order) more) := by
  obtain ⟨first, second, third⟩ := fits
  have length : ((Written.arc source target count).body l order).length = l.arcSize := by
    simp [Written.body, Layout.arcSize]
    omega
  rw [readArc, takeExactly_after length]
  simp only [Written.body, bind, Except.bind, pure, Except.pure]
  rw [fieldOf_bytesOf first, fieldOf_skip (Nat.add_zero _).symm, fieldOf_bytesOf second,
    fieldOf_skip (Nat.two_mul _), fieldOf_skip (Nat.add_zero _).symm, fieldOf_bytesOf_last third]
  rfl

theorem exists_arc (order : ByteOrder) (length : bytes.length = l.arcSize) :
    ∃ source target count, (Written.arc source target count).Fits l ∧
      bytes = (Written.arc source target count).body l order := by
  rw [Layout.arcSize, Nat.two_mul, Nat.add_assoc] at length
  obtain ⟨source, tail, first, rfl, tailLength⟩ := exists_bytesOf order length
  obtain ⟨target, last, second, rfl, lastLength⟩ := exists_bytesOf order tailLength
  obtain ⟨count, third, rfl⟩ := exists_bytesOf_last order lastLength
  exact ⟨source, target, count, ⟨first, second, third⟩, rfl⟩

theorem readArc_settles (l : Layout) (order : ByteOrder) (before rest : List UInt8) :
    Settles before.length (readArc l order)
      (fun a bytes => ∃ source target count, (Written.arc source target count).Fits l ∧
        bytes = (Written.arc source target count).body l order ∧
        a = { source, target, count, offset := before.length }) before rest := by
  rcases split_or_short rest (Int.natCast_nonneg l.arcSize) with ⟨bytes, more, rfl, length⟩ | short
  · obtain ⟨source, target, count, fits, rfl⟩ := exists_arc order (by exact_mod_cast length)
    exact .found _ _ more rfl ⟨source, target, count, fits, rfl, rfl⟩ (readArc_after fits)
  · refine .short "call-graph arc" (Int.le_refl _) short ?_
    rw [readArc, takeExactly_short short]
    rfl

/-! ## Histograms -/

open WrittenHistogram

theorem length_fixedBytes (l : Layout) (order : ByteOrder) (low high count rate : Nat) :
    (fixedBytes l order low high count rate).length = l.histogramFixedSize := by
  simp [fixedBytes, Layout.histogramFixedSize]
  omega

theorem exists_fixedBytes (order : ByteOrder) (length : bytes.length = l.histogramFixedSize) :
    ∃ low high count rate, bytes = fixedBytes l order low high count rate ∧
      l.addressWidth.Holds low ∧ l.addressWidth.Holds high ∧ l.bucketCountWidth.Holds count ∧
      l.rateWidth.Holds rate := by
  rw [Layout.histogramFixedSize, Nat.two_mul, Nat.add_assoc, Nat.add_assoc] at length
  obtain ⟨low, tail₁, first, rfl, length₁⟩ := exists_bytesOf order length
  obtain ⟨high, tail₂, second, rfl, length₂⟩ := exists_bytesOf order length₁
  obtain ⟨count, tail₃, third, rfl, length₃⟩ := exists_bytesOf order length₂
  obtain ⟨rate, fourth, rfl⟩ := exists_bytesOf_last order length₃
  exact ⟨low, high, count, rate, rfl, first, second, third, fourth⟩

/-- What is read behind the header of a histogram: the counters, when the range is not
    inverted. -/
def readCounters (l : Layout) (order : ByteOrder) (offset : Int) (low high count rate : Nat)
    (dimension : List UInt8) (abbreviation : UInt8) (c : Cursor) :
    Except Fault (Section × Cursor) :=
  if high < low then
    .error (.malformed "inverted histogram range" offset
      (.text s!"high_pc >= 0x{Text.hexText low}") (.text s!"0x{Text.hexText high}"))
  else do
    let (counters, rest) ← c.takeExactly (l.counterWidth.bytes * count) "histogram counters"
    return ({ histogram :=
                { low, high, bucketCount := count, sampleRate := rate
                  dimension := paddedText dimension
                  abbreviation := paddedText [abbreviation] }
              buckets := (numbersOf order l.counterWidth count counters).mapIdx
                fun index samples => { index, samples }
              offset }, rest)

theorem readSection_header {low high count rate : Nat} {dimension : List UInt8}
    (first : l.addressWidth.Holds low) (second : l.addressWidth.Holds high)
    (third : l.bucketCountWidth.Holds count) (fourth : l.rateWidth.Holds rate)
    (length : (dimension.length : Int) = l.dimensionWidth) (abbreviation : UInt8)
    (more : List UInt8) :
    readSection l order (after before
        (fixedBytes l order low high count rate ++ dimension ++ [abbreviation] ++ more)) =
      readCounters l order before.length low high count rate dimension abbreviation
        (after (before ++ (fixedBytes l order low high count rate ++ dimension ++ [abbreviation]))
          more) := by
  have one : (([abbreviation] : List UInt8).length : Int) = 1 := rfl
  -- each field is found behind those before it
  have lowField : fieldOf order (fixedBytes l order low high count rate) 0 l.addressWidth = low :=
    fieldOf_bytesOf first _
  have highField : fieldOf order (fixedBytes l order low high count rate) l.addressWidth.bytes
      l.addressWidth = high := by
    rw [fixedBytes, fieldOf_skip (Nat.add_zero _).symm, fieldOf_bytesOf second]
  have countField : fieldOf order (fixedBytes l order low high count rate)
      (2 * l.addressWidth.bytes) l.bucketCountWidth = count := by
    rw [fixedBytes, fieldOf_skip (Nat.two_mul _), fieldOf_skip (Nat.add_zero _).symm,
      fieldOf_bytesOf third]
  have rateField : fieldOf order (fixedBytes l order low high count rate)
      (2 * l.addressWidth.bytes + l.bucketCountWidth.bytes) l.rateWidth = rate := by
    rw [fixedBytes, Nat.two_mul, Nat.add_assoc, fieldOf_skip rfl, fieldOf_skip rfl,
      fieldOf_skip (Nat.add_zero _).symm, fieldOf_bytesOf_last fourth]
  simp only [List.append_assoc]
  rw [readSection, takeExactly_after (length_fixedBytes l order low high count rate)]
  simp only [bind, Except.bind]
  rw [take_after length]
  dsimp only
  rw [take_after one]
  simp only [lowField, highField, countField, rateField, offset_after, List.append_assoc,
    readCounters]
  split <;> rfl

theorem readCounters_after {h : WrittenHistogram} (fits : h.Fits l) (offset : Int)
    (before more : List UInt8) :
    readCounters l order offset h.low h.high h.counters.length h.rate h.dimension h.abbreviation
        (after before (bytesOfAll order l.counterWidth h.counters ++ more)) =
      .ok (h.toSection offset, after (before ++ bytesOfAll order l.counterWidth h.counters)
        more) := by
  have size : (bytesOfAll order l.counterWidth h.counters).length =
      l.counterWidth.bytes * h.counters.length := by simp
  rw [readCounters, if_neg (Nat.not_lt.2 fits.low_le_high), takeExactly_after size]
  simp only [bind, Except.bind, pure, Except.pure, numbersOf_bytesOfAll fits.counters]
  rfl

theorem readSection_after {h : WrittenHistogram} (fits : h.Fits l) (more : List UInt8) :
    readSection l order (after before (h.bytes l order ++ more)) =
      .ok (h.toSection before.length, after (before ++ h.bytes l order) more) := by
  have low : l.addressWidth.Holds h.low := Nat.lt_of_le_of_lt fits.low_le_high fits.high
  have header := @readSection_header l order before _ _ _ _ _ low fits.high fits.count fits.rate
    fits.dimension h.abbreviation (bytesOfAll order l.counterWidth h.counters ++ more)
  rw [readCounters_after fits] at header
  simpa only [WrittenHistogram.bytes, List.append_assoc] using header

theorem readSection_settles (whole : 0 ≤ l.dimensionWidth) (order : ByteOrder)
    (before rest : List UInt8) :
    Settles before.length (readSection l order)
      (fun s bytes => ∃ h : WrittenHistogram, h.Fits l ∧ bytes = h.bytes l order ∧
        s = h.toSection before.length) before rest := by
  -- the header is read in three steps, and bytes can be missing at each of them
  rcases split_or_short rest (Int.natCast_nonneg l.histogramFixedSize) with
    ⟨fixed, rest, rfl, length⟩ | short
  case inr =>
    refine .short "histogram header" (Int.le_refl _) short ?_
    rw [readSection, takeExactly_short short]
    rfl
  have length : fixed.length = l.histogramFixedSize := by exact_mod_cast length
  rcases split_or_short rest whole with ⟨dimension, rest, rfl, width⟩ | short
  case inr =>
    refine .short_behind "histogram header" fixed (Int.le_refl _) short ?_
    rw [readSection, takeExactly_after length]
    simp only [bind, Except.bind, take_short short]
  rcases split_or_short rest Int.one_nonneg with ⟨last, rest, rfl, one⟩ | short
  case inr =>
    rw [← List.append_assoc]
    refine .short_behind "histogram header" (fixed ++ dimension) (Int.le_refl _) short ?_
    rw [readSection, List.append_assoc, takeExactly_after length]
    simp only [bind, Except.bind, take_after width, take_short short, List.append_assoc]
  obtain ⟨low, high, count, rate, rfl, first, second, third, fourth⟩ :=
    exists_fixedBytes order length
  obtain ⟨abbreviation, rfl⟩ := List.length_eq_one_iff.1 (Int.ofNat.inj one)
  rw [← List.append_assoc, ← List.append_assoc]
  refine .behind (readSection_header first second third fourth width abbreviation) ?_
  by_cases inverted : high < low
  · refine .malformed _ ?_ fun more => if_pos inverted
    exact Int.le_refl _
  rcases split_or_short rest (Int.natCast_nonneg (l.counterWidth.bytes * count)) with
    ⟨counters, rest, rfl, size⟩ | short
  case inr =>
    have place : (before.length : Int) ≤ (before ++ (fixedBytes l order low high count rate ++
        dimension ++ [abbreviation])).length := by
      rw [List.length_append]
      omega
    refine .short "histogram counters" place short ?_
    rw [readCounters, if_neg inverted, takeExactly_short short]
    rfl
  obtain ⟨numbers, rfl, holds, rfl⟩ := exists_bytesOfAll order (by exact_mod_cast size)
  let h : WrittenHistogram := { low, high, rate, dimension, abbreviation, counters := numbers }
  have fits : h.Fits l := ⟨Nat.le_of_not_lt inverted, second, third, fourth, width, holds⟩
  refine .found (h.toSection before.length) _ rest rfl ⟨h, fits, ?_, rfl⟩ fun more =>
    readCounters_after fits _ _ more
  simp [WrittenHistogram.bytes, h]

/-! ## Basic blocks -/

theorem readBlocks_after {counts : List BlockCount} (fits : (Written.blocks counts).Fits l)
    (more : List UInt8) :
    readBlocks l order (after before ((Written.blocks counts).body l order ++ more)) =
      .ok (counts, after (before ++ (Written.blocks counts).body l order) more) := by
  obtain ⟨count, holds⟩ := fits
  have size :
      (bytesOfAll order l.addressWidth (counts.flatMap fun c => [c.address, c.count])).length =
        l.addressWidth.bytes * (2 * counts.length) := by
    rw [length_bytesOfAll, length_pairs]
  rw [readBlocks, Written.body, List.append_assoc, takeExactly_after (length_bytesOf _ _ _)]
  simp only [bind, Except.bind, fieldOf_bytesOf_last count]
  rw [takeExactly_after size, ← length_pairs]
  simp only [numbersOf_bytesOfAll (holds_pairs_iff.2 holds), blockCounts_pairs, List.append_assoc]
  rfl

theorem readBlocks_settles (l : Layout) (order : ByteOrder) (before rest : List UInt8) :
    Settles before.length (readBlocks l order)
      (fun counts bytes => (Written.blocks counts).Fits l ∧
        bytes = (Written.blocks counts).body l order) before rest := by
  rcases split_or_short rest (Int.natCast_nonneg l.blockCountWidth.bytes) with
    ⟨header, rest, rfl, length⟩ | short
  case inr =>
    refine .short "basic-block header" (Int.le_refl _) short ?_
    rw [readBlocks, takeExactly_short short]
    rfl
  obtain ⟨count, fits, rfl⟩ := exists_bytesOf_last order (by exact_mod_cast length)
  rcases split_or_short rest (Int.natCast_nonneg (l.addressWidth.bytes * (2 * count))) with
    ⟨body, rest, rfl, size⟩ | short
  case inr =>
    refine .short_behind "basic-block counts" _ (Int.le_refl _) short ?_
    rw [readBlocks, takeExactly_after (length_bytesOf _ _ _)]
    simp only [bind, Except.bind, fieldOf_bytesOf_last fits]
    rw [takeExactly_short short]
  obtain ⟨numbers, length, holds, rfl⟩ := exists_bytesOfAll order (by exact_mod_cast size)
  obtain ⟨counts, rfl, rfl⟩ := exists_pairs length
  have fits : (Written.blocks counts).Fits l := ⟨fits, holds_pairs_iff.1 holds⟩
  rw [← List.append_assoc]
  exact .found counts _ rest rfl ⟨fits, rfl⟩ (readBlocks_after fits)

/-! ## Records of any kind -/

namespace Written

/-- Whether a number is the tag under which a record is read. -/
def HasTag (l : Layout) (tag : Nat) : Written → Prop
  | .histogram _ => l.histogramTag.equalsInt tag = true
  | .arc .. => l.histogramTag.equalsInt tag = false ∧ l.arcTag.equalsInt tag = true
  | .blocks _ =>
      l.histogramTag.equalsInt tag = false ∧ l.arcTag.equalsInt tag = false ∧
        l.blockTag.equalsInt tag = true

/-- Whether a record can follow when `first` is the first histogram before it. -/
def Follows (first : Option Histogram) : Written → Prop
  | .histogram h => ∀ f ∈ first, h.rate = f.sampleRate ∧ paddedText h.dimension = f.dimension
  | _ => True

end Written

theorem checkCompatible_eq_ok_iff (first : Option Histogram) (h : WrittenHistogram)
    (offset : Int) :
    checkCompatible first (h.toSection offset) = .ok () ↔ (Written.histogram h).Follows first := by
  cases first with
  | none => simp [checkCompatible, Written.Follows]
  | some f =>
      simp only [checkCompatible, Written.Follows, toSection, Option.mem_some_iff, forall_eq']
      by_cases rate : h.rate = f.sampleRate
      · by_cases dimension : paddedText h.dimension = f.dimension <;> simp [rate, dimension]
      · simp [rate]

theorem isMalformed_of_checkCompatible {first : Option Histogram} {s : Section} {fault : Fault}
    (rejected : checkCompatible first s = .error fault) : fault.IsMalformed s.offset := by
  cases first with
  | none => cases rejected
  | some f =>
      simp only [checkCompatible] at rejected
      by_cases rate : s.histogram.sampleRate = f.sampleRate
      · by_cases dimension : s.histogram.dimension = f.dimension
        · simp [rate, dimension] at rejected
        · rw [if_neg fun differs => differs rate, if_pos dimension] at rejected
          cases rejected
          exact Int.le_refl _
      · rw [if_pos rate] at rejected
        cases rejected
        exact Int.le_refl _

/-- What is read behind a tag. -/
def readTagged (l : Layout) (order : ByteOrder) (first : Option Histogram) (offset : Int)
    (tag : Nat) (c : Cursor) : Except Fault (Record × Cursor) :=
  if l.histogramTag.equalsInt tag then do
    let (s, rest) ← readSection l order c
    checkCompatible first s
    return (.histogram s, rest)
  else if l.arcTag.equalsInt tag then do
    let (a, rest) ← readArc l order c
    return (.arc a, rest)
  else if l.blockTag.equalsInt tag then do
    let (counts, rest) ← readBlocks l order c
    return (.blocks counts, rest)
  else
    .error (.malformed "unknown record tag" offset
      (.tuple [l.histogramTag, l.arcTag, l.blockTag]) (.int tag))

theorem readRecord_tag {tag : Nat} (holds : l.tagWidth.Holds tag) (first : Option Histogram)
    (more : List UInt8) :
    readRecord l order first (after before (bytesOf order l.tagWidth tag ++ more)) =
      readTagged l order first before.length tag
        (after (before ++ bytesOf order l.tagWidth tag) more) := by
  rw [readRecord, takeExactly_after (length_bytesOf _ _ _)]
  simp only [bind, Except.bind, numberOf_bytesOf holds, offset_after, readTagged]
  rfl

theorem readTagged_settles (whole : 0 ≤ l.dimensionWidth) (order : ByteOrder)
    (first : Option Histogram) (offset : Int) (tag : Nat) (before rest : List UInt8)
    (place : offset ≤ before.length) :
    Settles offset (readTagged l order first offset tag)
      (fun r bytes => ∃ w : Written, w.HasTag l tag ∧ w.Fits l ∧ w.Follows first ∧
        bytes = w.body l order ∧ r = w.toRecord before.length) before rest := by
  by_cases histogram : l.histogramTag.equalsInt tag = true
  · refine .congr (fun rest => ?_) (.andThen (checkCompatible first) .histogram
      ((readSection_settles whole order before rest).mono place) ?_ ?_)
    · rw [readTagged, if_pos histogram]
    · rintro s bytes ⟨h, fits, rfl, rfl⟩ accepted
      exact ⟨.histogram h, histogram, fits,
        (checkCompatible_eq_ok_iff first h before.length).1 accepted, rfl, rfl⟩
    · rintro s bytes ⟨h, -, -, rfl⟩ fault rejected
      exact (isMalformed_of_checkCompatible rejected).mono place
  by_cases arc : l.arcTag.equalsInt tag = true
  · refine .congr (fun rest => ?_) (.andThen (fun _ => .ok ()) .arc
      ((readArc_settles l order before rest).mono place) ?_ ?_)
    · rw [readTagged, if_neg histogram, if_pos arc]
      rfl
    · rintro s bytes ⟨source, target, count, fits, rfl, rfl⟩ -
      exact ⟨.arc source target count, ⟨eq_false_of_ne_true histogram, arc⟩, fits, trivial, rfl,
        rfl⟩
    · rintro _ _ - _ ⟨⟩
  by_cases blocks : l.blockTag.equalsInt tag = true
  · refine .congr (fun rest => ?_) (.andThen (fun _ => .ok ()) .blocks
      ((readBlocks_settles l order before rest).mono place) ?_ ?_)
    · rw [readTagged, if_neg histogram, if_neg arc, if_pos blocks]
      rfl
    · rintro counts bytes ⟨fits, rfl⟩ -
      exact ⟨.blocks counts, ⟨eq_false_of_ne_true histogram, eq_false_of_ne_true arc, blocks⟩,
        fits, trivial, rfl, rfl⟩
    · rintro _ _ - _ ⟨⟩
  · refine .malformed (.malformed "unknown record tag" offset
      (.tuple [l.histogramTag, l.arcTag, l.blockTag]) (.int tag)) (Int.le_refl _) fun more => ?_
    rw [readTagged, if_neg histogram, if_neg arc, if_neg blocks]

theorem readTagged_after {first : Option Histogram} {tag : Nat} {w : Written}
    (named : w.HasTag l tag) (fits : w.Fits l) (follows : w.Follows first) (offset : Int)
    (before more : List UInt8) :
    readTagged l order first offset tag (after before (w.body l order ++ more)) =
      .ok (w.toRecord before.length, after (before ++ w.body l order) more) := by
  cases w with
  | histogram h =>
      have histogram : l.histogramTag.equalsInt tag = true := named
      rw [readTagged, if_pos histogram, Written.body, readSection_after fits]
      simp only [bind, Except.bind, (checkCompatible_eq_ok_iff first h before.length).2 follows]
      rfl
  | arc source target count =>
      obtain ⟨histogram, arc⟩ := named
      rw [readTagged, if_neg (ne_true_of_eq_false histogram), if_pos arc, readArc_after fits]
      rfl
  | blocks counts =>
      obtain ⟨histogram, arc, blocks⟩ := named
      rw [readTagged, if_neg (ne_true_of_eq_false histogram), if_neg (ne_true_of_eq_false arc),
        if_pos blocks, readBlocks_after fits]
      rfl

theorem readRecord_after {first : Option Histogram} {tag : Nat} {w : Written}
    (holds : l.tagWidth.Holds tag) (named : w.HasTag l tag) (fits : w.Fits l)
    (follows : w.Follows first) (more : List UInt8) :
    readRecord l order first
        (after before (bytesOf order l.tagWidth tag ++ w.body l order ++ more)) =
      .ok (w.toRecord (before.length + l.tagWidth.bytes),
        after (before ++ (bytesOf order l.tagWidth tag ++ w.body l order)) more) := by
  rw [List.append_assoc, readRecord_tag holds, readTagged_after named fits follows]
  simp

/-- Whether bytes at a place are a record that can follow when `first` is the first histogram
    before it. -/
def IsRecord (l : Layout) (order : ByteOrder) (first : Option Histogram) (place : Int)
    (r : Record) (bytes : List UInt8) : Prop :=
  ∃ tag, ∃ w : Written, l.tagWidth.Holds tag ∧ w.HasTag l tag ∧ w.Fits l ∧ w.Follows first ∧
    bytes = bytesOf order l.tagWidth tag ++ w.body l order ∧
    r = w.toRecord (place + l.tagWidth.bytes)

theorem IsRecord.length_pos {first : Option Histogram} {place : Int} {r : Record}
    (isRecord : IsRecord l order first place r bytes) : 0 < bytes.length := by
  obtain ⟨tag, w, -, -, -, -, rfl, -⟩ := isRecord
  have pos := l.tagWidth.bytes_pos
  rw [List.length_append, length_bytesOf]
  omega

/-- Every record that is read is one that is written, and what is no record is so for its bytes
    alone. -/
theorem readRecord_settles (whole : 0 ≤ l.dimensionWidth) (order : ByteOrder)
    (first : Option Histogram) (before rest : List UInt8) :
    Settles before.length (readRecord l order first) (IsRecord l order first before.length)
      before rest := by
  rcases split_or_short rest (Int.natCast_nonneg l.tagWidth.bytes) with
    ⟨bytes, rest, rfl, length⟩ | short
  case inr =>
    refine .short "record tag" (Int.le_refl _) short ?_
    rw [readRecord, takeExactly_short short]
    rfl
  obtain ⟨tag, holds, rfl⟩ := exists_bytesOf_last order (by exact_mod_cast length)
  have place : (before.length : Int) ≤ (before ++ bytesOf order l.tagWidth tag).length := by
    rw [List.length_append]
    omega
  refine .behind (readRecord_tag holds first) ?_
  have length : ((before ++ bytesOf order l.tagWidth tag).length : Int) =
      before.length + l.tagWidth.bytes := by simp
  cases readTagged_settles whole order first before.length tag _ rest place with
  | found r bytes more split holds' reads =>
      obtain ⟨w, named, fits, follows, rfl, rfl⟩ := holds'
      rw [length] at reads
      exact .found _ _ more split ⟨tag, w, holds, named, fits, follows, rfl, rfl⟩ reads
  | malformed fault kind stays => exact .malformed fault kind stays
  | truncated fault kind fails => exact .truncated fault kind fails

end CallProfile
