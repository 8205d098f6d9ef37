import CallProfile.Proofs.Attributed
import CallProfile.Proofs.Grammar
import CallProfile.Proofs.ModerateBatches
import Mathlib.Algebra.Group.Action.Defs

/-! # Weights of files

A file tells of no more than its bytes can hold: every count lies in eight bytes at most, and no two
counts share a byte. So the inputs of a batch are moderate unless they are of a size that no machine
can store.
-/

namespace CallProfile

open scoped Whole

/-- What the widest field cannot hold. -/
def fieldLimit : Nat :=
  256 ^ 8

theorem Width.Holds.lt {w : Width} {n : Nat} (holds : w.Holds n) : n < fieldLimit := by
  refine lt_of_lt_of_le holds (Nat.pow_le_pow_right (by decide) ?_)
  cases w <;> decide

/-- The samples or the calls that a record tells of. -/
def Record.weight : Record → Nat
  | .histogram s => s.total
  | .arc a => a.count
  | .blocks _ => 0

theorem Recording.sum_weight (r : Recording) :
    (r.records.map Record.weight).sum = r.counters.sum + (r.arcs.map (·.count)).sum := by
  rw [Recording.counters, Attribution.counters_eq_total, Recording.sections, Recording.arcs]
  induction r.records with
  | nil => rfl
  | cons record records ih =>
      cases record <;> simp [Record.weight, ih] <;> omega

namespace Written

variable {l : Layout} {w : Written} {ws : List Written} {r : Recording} {data : List UInt8}
  {t : Tags}

theorem total_toSection (h : WrittenHistogram) (offset : Int) :
    (h.toSection offset).total = h.counters.sum := by
  rw [Section.total, WrittenHistogram.toSection]
  exact congrArg List.sum (List.ext_getElem (by simp) (by simp))

theorem weight_le (fits : w.Fits l) (t : Tags) (order : ByteOrder) (offset : Int) :
    (w.toRecord offset).weight ≤ fieldLimit * (w.bytes l t order).length := by
  cases w with
  | histogram h =>
      have counts : h.counters.sum ≤ h.counters.length * fieldLimit := by
        rw [← smul_eq_mul]
        exact List.sum_le_card_nsmul _ _ fun n member => (fits.counters n member).lt.le
      have bytes : h.counters.length ≤ ((Written.histogram h).bytes l t order).length := by
        have each := Nat.le_mul_of_pos_left h.counters.length l.counterWidth.bytes_pos
        simp only [Written.bytes, body, WrittenHistogram.bytes, List.length_append,
          length_bytesOfAll]
        omega
      rw [toRecord, Record.weight, total_toSection]
      rw [Nat.mul_comm] at counts
      exact counts.trans (Nat.mul_le_mul_left _ bytes)
  | arc source target count =>
      have some : 0 < ((Written.arc source target count).bytes l t order).length := by
        have pos := l.tagWidth.bytes_pos
        simp only [Written.bytes, List.length_append, length_bytesOf]
        omega
      exact fits.2.2.lt.le.trans (Nat.le_mul_of_pos_right _ some)
  | blocks counts => exact Nat.zero_le _

theorem sum_weight_le (fits : ∀ w ∈ ws, w.Fits l) (t : Tags) (order : ByteOrder) (start : Int) :
    ((toRecords l start ws).map Record.weight).sum ≤
      fieldLimit * (ws.flatMap (·.bytes l t order)).length := by
  induction ws generalizing start with
  | nil => exact Nat.zero_le _
  | cons w ws ih =>
      have first := weight_le (fits w List.mem_cons_self) t order (start + l.tagWidth.bytes)
      have rest := ih (fun w member => fits w (List.mem_cons_of_mem _ member))
        (start + l.tagWidth.bytes + w.size l)
      rw [toRecords, List.map_cons, List.sum_cons, List.flatMap_cons, List.length_append,
        Nat.mul_add]
      exact Nat.add_le_add first rest

/-- The rate of a recording is one of a histogram of the file, or zero. -/
theorem sampleRate_le (fits : ∀ w ∈ ws, w.Fits l) (start : Int)
    (records : r.records = toRecords l start ws) : r.sampleRate ≤ fieldLimit := by
  have each : ∀ s ∈ r.sections, s.histogram.sampleRate < fieldLimit := by
    rw [Recording.sections, records]
    clear records
    induction ws generalizing start with
    | nil => exact fun s none => (List.not_mem_nil none).elim
    | cons w ws ih =>
        have rest := ih (fun w member => fits w (List.mem_cons_of_mem _ member))
          (start + l.tagWidth.bytes + w.size l)
        cases w with
        | histogram h =>
            have rate := (fits _ List.mem_cons_self).rate.lt
            exact List.forall_mem_cons.2 ⟨rate, rest⟩
        | arc source target count => exact rest
        | blocks counts => exact rest
  rw [Recording.sampleRate]
  split
  · exact Nat.zero_le _
  · next s others listed => exact (each s (by rw [listed]; exact List.mem_cons_self)).le

end Written

namespace Batch

variable {layout : Layout} {t : Tags} {r : Recording} {data : List UInt8} {inputs : List Input}

theorem weightOf_le (regular : layout.IsRegular t) (decoded : decode layout data = .ok r) :
    weightOf r ≤ fieldLimit * (data.length + 1) := by
  obtain ⟨f, fits, rfl, rfl⟩ := (decode_eq_ok_iff regular).1 decoded
  have records := Written.sum_weight_le fits.stream t f.header.order layout.headerSize
  have rate := Written.sampleRate_le (r := f.toRecording layout) fits.stream layout.headerSize rfl
  rw [weightOf, ← Recording.sum_weight, WrittenFile.bytes, List.length_append]
  refine (Nat.add_le_add records rate).trans ?_
  rw [← Nat.mul_succ]
  exact Nat.mul_le_mul_left _ (by omega)

/-- The bytes of an input, and one for the input itself. -/
def Input.size (input : Input) : Nat :=
  match input.content with
  | .ok bytes => bytes.length + 1
  | .error _ => 1

theorem Input.weight_le (regular : layout.IsRegular t) (input : Input) :
    input.weight layout ≤ fieldLimit * input.size := by
  rw [Input.weight, Input.size]
  cases read : input.recording layout with
  | error fault => exact Nat.zero_le _
  | ok r =>
      rw [Input.recording] at read
      cases content : input.content with
      | error fault =>
          rw [content] at read
          cases read
      | ok bytes =>
          rw [content] at read
          exact weightOf_le regular read

/-- Whether inputs have fewer bytes in all than any machine could store. -/
def AreStorable (inputs : List Input) : Prop :=
  (inputs.map Input.size).sum < 2 ^ 900

end Batch

end CallProfile
