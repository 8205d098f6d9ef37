import CallProfile.Proofs.Streams

/-! # Cut files

A file can be decoded as its bytes arrive. What has been read stays read, a fault of content stays
the same fault, and a file that ends too early says at which place, and how many bytes are there.
-/

namespace CallProfile

open scoped Whole

variable {l : Layout} {order : ByteOrder} {first : Option Histogram}
  {before rest : List UInt8} {rs : List Record} {fault : Fault}

/-- Records that have been read stay, and reading goes on behind them. -/
theorem readAll_append (whole : 0 ≤ l.dimensionWidth)
    (reads : readAll l order first before rest = .ok rs) (more : List UInt8) :
    readAll l order first before (rest ++ more) =
      (readAll l order (rs.foldl firstAfter first) (before ++ rest) more).map (rs ++ ·) := by
  induction first, before, rest using stream_induction whole order generalizing rs with
  | nil first before =>
      rw [readAll_nil] at reads
      cases reads
      rw [List.nil_append, List.append_nil, List.foldl_nil]
      cases readAll l order first before more <;> rfl
  | cons first before r bytes rest holds again ih =>
      rw [again] at reads
      obtain ⟨rs, tail, rfl⟩ := map_eq_ok_iff.1 reads
      rw [List.append_assoc, again, ih tail, List.append_assoc, List.foldl_cons]
      cases readAll l order (rs.foldl firstAfter (firstAfter first r)) (before ++ (bytes ++ rest))
        more <;> rfl
  | malformed first before rest fault kind stays =>
      exact absurd (error_of_stays stays) (ne_error_of_ok reads)
  | truncated first before rest fault kind fails => exact absurd fails (ne_error_of_ok reads)

/-- A fault is one of content, and stays, or it counts the bytes that are there. -/
theorem readAll_fault (whole : 0 ≤ l.dimensionWidth)
    (fails : readAll l order first before rest = .error fault) :
    (fault.IsMalformed before.length ∧
        ∀ more, readAll l order first before (rest ++ more) = .error fault) ∨
      fault.IsTruncated before.length (before ++ rest).length := by
  induction first, before, rest using stream_induction whole order with
  | nil first before =>
      rw [readAll_nil] at fails
      cases fails
  | cons first before r bytes rest holds again ih =>
      have place : (before.length : Int) ≤ (before ++ bytes).length := by
        rw [List.length_append]
        omega
      rw [again, map_eq_error_iff] at fails
      rcases ih fails with ⟨kind, stays⟩ | kind
      · refine .inl ⟨kind.mono place, fun more => ?_⟩
        rw [List.append_assoc, again, map_eq_error_iff, stays]
      · rw [List.append_assoc] at kind
        exact .inr (kind.mono place)
  | malformed first before rest fault' kind stays =>
      cases fails.symm.trans (error_of_stays stays)
      exact .inl ⟨kind, stays⟩
  | truncated first before rest fault' kind fails' =>
      cases fails.symm.trans fails'
      exact .inr kind

/-- Whether what one recording holds is a first part of what another one holds. -/
structure Recording.IsPart (part whole : Recording) : Prop where
  layout : part.layout = whole.layout
  version : part.version = whole.version
  byteOrder : part.byteOrder = whole.byteOrder
  records : part.records <+: whole.records
  sections : part.sections <+: whole.sections
  arcs : part.arcs <+: whole.arcs
  blocks : part.blocks <+: whole.blocks

theorem Recording.isPart_append (layout : Layout) (version : Int) (byteOrder : ByteOrder)
    (rs more : List Record) :
    (Recording.mk layout version byteOrder rs).IsPart
      (Recording.mk layout version byteOrder (rs ++ more)) where
  layout := rfl
  version := rfl
  byteOrder := rfl
  records := List.prefix_append _ _
  sections := by
    rw [Recording.sections, Recording.sections, List.filterMap_append]
    exact List.prefix_append _ _
  arcs := by
    rw [Recording.arcs, Recording.arcs, List.filterMap_append]
    exact List.prefix_append _ _
  blocks := by
    rw [Recording.blocks, Recording.blocks, List.flatMap_append]
    exact List.prefix_append _ _

theorem decode_fault (spare : 0 ≤ l.spareWidth) (dimension : 0 ≤ l.dimensionWidth)
    {data : List UInt8} (fails : decode l data = .error fault) :
    (fault.IsMalformed 0 ∧ ∀ more, decode l (data ++ more) = .error fault) ∨
      fault.IsTruncated 0 data.length := by
  cases decode_starts spare data with
  | short missing short =>
      cases fails.symm.trans short
      exact .inr ⟨Int.le_refl _, Int.natCast_nonneg _, missing, Int.zero_add _⟩
  | malformed fault' kind stays =>
      cases fails.symm.trans (error_of_stays stays)
      exact .inl ⟨kind, stays⟩
  | header h rest fits split =>
      subst split
      have place : (0 : Int) ≤ (h.bytes l).length := Int.natCast_nonneg _
      rw [decode_bytes dimension fits, map_eq_error_iff] at fails
      rcases readAll_fault dimension fails with ⟨kind, stays⟩ | kind
      · refine .inl ⟨kind.mono place, fun more => ?_⟩
        rw [List.append_assoc, decode_bytes dimension fits, map_eq_error_iff, stays]
      · exact .inr (kind.mono place)

/-- More bytes lead to more records, or to a fault behind those that have been read. -/
theorem decode_append (spare : 0 ≤ l.spareWidth) (dimension : 0 ≤ l.dimensionWidth)
    {data : List UInt8} {r : Recording} (reads : decode l data = .ok r) (more : List UInt8) :
    (∃ r', decode l (data ++ more) = .ok r' ∧ r.IsPart r') ∨
      ∃ fault, decode l (data ++ more) = .error fault ∧
        (fault.IsMalformed data.length ∨ fault.IsTruncated data.length (data ++ more).length) := by
  obtain ⟨h, rest, rs, fits, rfl, stream, rfl⟩ := stream_of_decode spare dimension reads
  have appended := readAll_append dimension stream more
  rw [List.append_assoc, decode_bytes dimension fits, appended]
  cases later : readAll l h.order (rs.foldl firstAfter none) (h.bytes l ++ rest) more with
  | ok rs' => exact .inl ⟨_, rfl, Recording.isPart_append ..⟩
  | error fault =>
      refine .inr ⟨fault, rfl, ?_⟩
      rcases readAll_fault dimension later with ⟨kind, -⟩ | kind
      · exact .inl kind
      · rw [List.append_assoc] at kind
        exact .inr kind

/-- Decoding is incremental, and its faults are located. A fault of content stays when bytes
    follow; what has been read stays, and any later fault lies behind it; a fault of missing bytes
    counts those that are there. So a file that is cut holds a first part of its records, or ends
    too early. -/
theorem decode_incremental (spare : 0 ≤ l.spareWidth) (dimension : 0 ≤ l.dimensionWidth)
    (data more : List UInt8) :
    (∀ context offset expected actual,
      decode l data = .error (.malformed context offset expected actual) →
        decode l (data ++ more) = .error (.malformed context offset expected actual)) ∧
    (∀ r, decode l data = .ok r →
      (∃ r', decode l (data ++ more) = .ok r' ∧ r.IsPart r') ∨
        ∃ fault, decode l (data ++ more) = .error fault ∧
          (fault.IsMalformed data.length ∨
            fault.IsTruncated data.length (data ++ more).length)) ∧
    (∀ fault, decode l data = .error fault →
      fault.IsMalformed 0 ∨ fault.IsTruncated 0 data.length) ∧
    (∀ r', decode l (data ++ more) = .ok r' →
      (∃ r, decode l data = .ok r ∧ r.IsPart r') ∨
        ∃ fault, decode l data = .error fault ∧ fault.IsTruncated 0 data.length) := by
  refine ⟨fun context offset expected actual fails => ?_, fun r reads => ?_, fun fault fails => ?_,
    fun r' reads' => ?_⟩
  · rcases decode_fault spare dimension fails with ⟨-, stays⟩ | kind
    · exact stays more
    · exact kind.elim
  · exact decode_append spare dimension reads more
  · exact (decode_fault spare dimension fails).imp_left And.left
  · cases cut : decode l data with
    | ok r =>
        rcases decode_append spare dimension cut more with ⟨r'', reads, part⟩ | ⟨fault, fails, -⟩
        · cases reads'.symm.trans reads
          exact .inl ⟨r, rfl, part⟩
        · exact absurd fails (ne_error_of_ok reads')
    | error fault =>
        rcases decode_fault spare dimension cut with ⟨-, stays⟩ | kind
        · exact absurd (stays more) (ne_error_of_ok reads')
        · exact .inr ⟨fault, rfl, kind⟩

/-- The header of a file for 64-bit programs. -/
def wideHeader : List UInt8 :=
  [0x67, 0x6D, 0x6F, 0x6E, 1, 0, 0, 0, 0, 0, 0, 0, 0, 0, 0, 0, 0, 0, 0, 0]

/-- An arc of a file for 64-bit programs. -/
def wideArc : List UInt8 :=
  [1, 0x00, 0x10, 0, 0, 0, 0, 0, 0, 0x00, 0x20, 0, 0, 0, 0, 0, 0, 3, 0, 0, 0]

/-- One basic-block count of a file for 64-bit programs. -/
def wideBlocks : List UInt8 :=
  [2, 1, 0, 0, 0, 0x00, 0x10, 0, 0, 0, 0, 0, 0, 7, 0, 0, 0, 0, 0, 0, 0]

/-- Of an arc and a basic-block count, the arc stays read when the count follows, is cut after
    ten bytes, or has a tag that no record has. -/
theorem decode_incremental_wideArc :
    ∃ r, decode .wide (wideHeader ++ wideArc) = .ok r ∧ r.arcs.length = 1 ∧
      (∃ r', decode .wide (wideHeader ++ wideArc ++ wideBlocks) = .ok r' ∧ r.IsPart r' ∧
        r'.blocks.length = 1) ∧
      (∃ fault, decode .wide (wideHeader ++ wideArc ++ wideBlocks.take 10) = .error fault ∧
        fault.IsTruncated 0 51) ∧
      ∃ fault, decode .wide (wideHeader ++ wideArc ++ [9]) = .error fault ∧
        fault.IsMalformed 41 ∧
        decode .wide (wideHeader ++ wideArc ++ [9] ++ wideBlocks) = .error fault := by
  let arc : Record := .arc { source := 0x1000, target := 0x2000, count := 3, offset := 21 }
  let blocks : Record := .blocks [{ address := 0x1000, count := 7 }]
  let holding (records : List Record) : Recording :=
    { layout := .wide, version := 1, byteOrder := .little, records }
  have spare : 0 ≤ Layout.wide.spareWidth := by decide
  have dimension : 0 ≤ Layout.wide.dimensionWidth := by decide
  have first : decode .wide (wideHeader ++ wideArc) = .ok (holding [arc]) := rfl
  have whole : decode .wide (wideHeader ++ wideArc ++ wideBlocks) = .ok (holding [arc, blocks]) :=
    rfl
  have cut : decode .wide (wideHeader ++ wideArc ++ wideBlocks.take 10) =
      .error (.truncated "basic-block counts" 46 16 5) := rfl
  have wrong : decode .wide (wideHeader ++ wideArc ++ [9]) =
      .error (.malformed "unknown record tag" 41 (.tuple [.int 0, .int 1, .int 2]) (.int 9)) := rfl
  refine ⟨_, first, rfl, ⟨_, whole, ?_, rfl⟩, ?_, _, wrong, ?_, ?_⟩
  · rcases (decode_incremental spare dimension (wideHeader ++ wideArc) wideBlocks).2.1 _ first
      with ⟨r', reads, part⟩ | ⟨fault, fails, -⟩
    · cases whole.symm.trans reads
      exact part
    · exact absurd fails (ne_error_of_ok whole)
  · rcases (decode_incremental spare dimension (wideHeader ++ wideArc ++ wideBlocks.take 10)
        (wideBlocks.drop 10)).2.2.2 _ whole with ⟨r, reads, -⟩ | late
    · exact absurd cut (ne_error_of_ok reads)
    · exact late
  · rcases (decode_incremental spare dimension (wideHeader ++ wideArc) [9]).2.1 _ first
      with ⟨r', reads, -⟩ | ⟨fault, fails, kind | kind⟩
    · exact absurd wrong (ne_error_of_ok reads)
    · cases wrong.symm.trans fails
      exact kind
    · cases wrong.symm.trans fails
      exact kind.elim
  · exact (decode_incremental spare dimension (wideHeader ++ wideArc ++ [9]) wideBlocks).1
      _ _ _ _ wrong

end CallProfile
