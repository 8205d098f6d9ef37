import CallProfile.Decimal.Notation
import CallProfile.Decimal.Read

/-! # Spellings of decimals

Digits with a point or an exponent spell a decimal. One that stands alone is read as the number
that it spells.
-/

namespace CallProfile.Decimal

open scoped Whole

/-! ## Digits -/

/-- Whether a text has nothing but digits. -/
def Digits (s : List Char) : Prop :=
  ∀ c ∈ s, c.isDigit = true

variable {ds rest : List Char}

theorem digits_digitsOf (n : Nat) : Digits (digitsOf n) := fun _ member =>
  Nat.isDigit_of_mem_toDigits (by decide) (by decide) member

theorem digits_zeros (n : Nat) : Digits (List.replicate n '0') := fun _ member => by
  rw [List.eq_of_mem_replicate member]
  rfl

theorem digits_append {ds' : List Char} (first : Digits ds) (second : Digits ds') :
    Digits (ds ++ ds') := fun c member =>
  (List.mem_append.1 member).elim (first c) (second c)

theorem digitsOf_ne_nil (n : Nat) : digitsOf n ≠ [] :=
  List.ne_nil_of_length_pos Nat.length_toDigits_pos

theorem exists_digit_digitsOf (n : Nat) :
    ∃ c s, digitsOf n = c :: s ∧ c.isDigit = true := by
  obtain ⟨c, s, front⟩ := List.exists_cons_of_ne_nil (digitsOf_ne_nil n)
  refine ⟨c, s, front, digits_digitsOf n c ?_⟩
  rw [front]
  exact List.mem_cons_self

theorem digitsValue_digitsOf (n : Nat) : digitsValue (digitsOf n) = n :=
  Nat.ofDigitChars_toDigits (by decide) (by decide)

theorem digitsOf_cons {n : Nat} (some : n ≠ 0) : ∃ c ds, digitsOf n = c :: ds ∧ c ≠ '0' := by
  induction n using Nat.strongRecOn with
  | ind n ih =>
      rw [digitsOf, Nat.toDigits_eq_if (by decide)]
      split
      · next below =>
          have digit : ∀ m < 10, m ≠ 0 → m.digitChar ≠ '0' := by decide
          exact ⟨_, [], rfl, digit n below some⟩
      · next above =>
          obtain ⟨c, ds, front, lead⟩ := ih (n / 10) (by omega) (by omega)
          rw [digitsOf] at front
          exact ⟨c, _, by rw [front]; rfl, lead⟩

theorem takeWhile_digits (digits : Digits ds) (ends : ∀ c ∈ rest.head?, c.isDigit = false) :
    (ds ++ rest).takeWhile Char.isDigit = ds := by
  rw [List.takeWhile_append_of_pos digits]
  cases rest with
  | nil => exact List.append_nil ds
  | cons c rest => simp [ends c rfl]

theorem dropWhile_digits (digits : Digits ds) (ends : ∀ c ∈ rest.head?, c.isDigit = false) :
    (ds ++ rest).dropWhile Char.isDigit = rest := by
  rw [List.dropWhile_append_of_pos digits]
  cases rest with
  | nil => rfl
  | cons c rest => simp [ends c rfl]

/-! ## Spellings -/

/-- A point and the digits behind it; nothing without digits. -/
def pointed : List Char → List Char
  | [] => []
  | ds => '.' :: ds

/-- Whether a text is the mark of an exponent, nothing standing for zero. -/
inductive Marks : List Char → Int → Prop
  | none : Marks [] 0
  | up {ds : List Char} (digits : Digits ds) (some : ds ≠ []) :
      Marks ('e' :: '+' :: ds) (digitsValue ds)
  | down {ds : List Char} (digits : Digits ds) (some : ds ≠ []) :
      Marks ('e' :: '-' :: ds) (-(digitsValue ds : Int))

/-- Whether a text spells a decimal, with a point or with an exponent, which `mark` marks. -/
structure Spells (text : List Char) (sp : Spelling) (mark : List Char) : Prop where
  text_eq : text = sp.whole ++ (pointed sp.fraction ++ mark)
  marks : Marks mark sp.exponent
  whole : Digits sp.whole
  nonempty : sp.whole ≠ []
  fraction : Digits sp.fraction
  real : sp.fraction ≠ [] ∨ mark ≠ []

theorem Marks.ends {mark : List Char} {exponent : Int} (marks : Marks mark exponent) :
    ∀ c ∈ mark.head?, c.isDigit = false := by
  rintro c first
  cases marks <;> cases first <;> rfl

theorem pointed_ends (fraction : List Char) (ends : ∀ c ∈ rest.head?, c.isDigit = false) :
    ∀ c ∈ (pointed fraction ++ rest).head?, c.isDigit = false := by
  cases fraction with
  | nil => exact ends
  | cons d ds =>
      rintro c first
      cases first
      rfl

theorem exponentDigits?_eq {exponent : Int} {e : Char} {digits : List Char}
    (marks : Marks (e :: digits) exponent) : e = 'e' ∧ exponentDigits? digits = some exponent := by
  cases marks with
  | up digits some => simp [exponentDigits?, some, List.all_eq_true.2 digits]
  | down digits some => simp [exponentDigits?, some, List.all_eq_true.2 digits]

namespace Spells

variable {text mark : List Char} {sp : Spelling}

theorem spelling_eq (spells : Spells text sp mark) : spelling? text = sp := by
  obtain ⟨rfl, marks, whole, some, fraction, real⟩ := spells
  obtain ⟨w, f, exponent⟩ := sp
  dsimp only at *
  have front := takeWhile_digits whole (pointed_ends f marks.ends)
  have back := dropWhile_digits whole (pointed_ends f marks.ends)
  cases f with
  | nil =>
      cases mark with
      | nil => simp at real
      | cons e digits =>
          obtain ⟨rfl, value⟩ := exponentDigits?_eq marks
          simp only [pointed, List.nil_append] at front back
          simp [spelling?, pointed, front, back, some, value]
  | cons d ds =>
      have places := takeWhile_digits fraction marks.ends
      have behind := dropWhile_digits fraction marks.ends
      simp only [pointed, List.cons_append] at front back places behind
      simp only [spelling?, pointed, List.cons_append, front, back, places, behind]
      cases mark with
      | nil =>
          cases marks
          simp
      | cons e digits =>
          obtain ⟨rfl, value⟩ := exponentDigits?_eq marks
          simp [value]

end Spells

/-! ## Decimals alone -/

/-- Whether a character stands for itself where a decimal is read. -/
def Stands (c : Char) : Prop :=
  43 ≤ c.toNat ∧ c.toNat ≤ 101 ∧ c ≠ '_'

theorem isDigit_iff {c : Char} : c.isDigit = true ↔ 48 ≤ c.toNat ∧ c.toNat ≤ 57 := by
  rw [Char.isDigit, Bool.and_eq_true, decide_eq_true_eq, decide_eq_true_eq, ge_iff_le,
    UInt32.le_iff_toNat_le, UInt32.le_iff_toNat_le]
  rfl

theorem stands_of_digit {c : Char} (digit : c.isDigit = true) : Stands c := by
  have range := isDigit_iff.1 digit
  refine ⟨by omega, by omega, ?_⟩
  rintro rfl
  cases digit

theorem plainDigit_of_stands {s : List Char} (stands : ∀ c ∈ s, Stands c) :
    s.map Text.plainDigit = s := by
  refine (List.map_congr_left fun c member => ?_).trans (List.map_id s)
  obtain ⟨-, most, -⟩ := stands c member
  exact if_pos (by omega)

theorem isNumeralBlank_of_stands {c : Char} (stands : Stands c) :
    Text.isNumeralBlank c = false := by
  obtain ⟨least, most, -⟩ := stands
  have blank : Text.isBlank c = false := by
    simp only [Text.isBlank, Bool.or_eq_false_iff, Bool.and_eq_false_iff, decide_eq_false_iff_not,
      beq_eq_false_iff_ne]
    omega
  rw [Text.isNumeralBlank, blank, Bool.false_and]

theorem dropWhile_of_stands {s : List Char} (stands : ∀ c ∈ s, Stands c) :
    s.dropWhile Text.isNumeralBlank = s := by
  cases s with
  | nil => rfl
  | cons c s => simp [isNumeralBlank_of_stands (stands c List.mem_cons_self)]

theorem trim_of_stands {s : List Char} (stands : ∀ c ∈ s, Stands c) :
    Text.trimWhere Text.isNumeralBlank s = s := by
  rw [Text.trimWhere, dropWhile_of_stands stands,
    dropWhile_of_stands fun c member => stands c (List.mem_reverse.1 member), List.reverse_reverse]

theorem dropUnderscores?_of_stands {s : List Char} (stands : ∀ c ∈ s, Stands c)
    (previous : Char) : dropUnderscores? previous s = some s := by
  induction s generalizing previous with
  | nil => rfl
  | cons c s ih =>
      have plain := (stands c List.mem_cons_self).2.2
      have rest := ih (fun d member => stands d (List.mem_cons_of_mem c member)) c
      simp [dropUnderscores?, plain, rest]

theorem toLower_of_digit {c : Char} (digit : c.isDigit = true) : c.toLower = c := by
  have range : 48 ≤ c.val.toNat ∧ c.val.toNat ≤ 57 := isDigit_iff.1 digit
  refine dif_neg ?_
  rintro ⟨upper, -⟩
  have least : 65 ≤ c.val.toNat := UInt32.le_iff_toNat_le.1 upper
  omega

theorem namedNumber?_of_digit (negative : Bool) {c : Char} (digit : c.isDigit = true)
    (s : List Char) : namedNumber? negative (c :: s) = none := by
  have apart : ∀ (d : Char) (t : List Char), d.isDigit = false →
      String.ofList ((c :: s).map Char.toLower) ≠ String.ofList (d :: t) := by
    intro d t other equal
    have heads := List.head_eq_of_cons_eq (String.ofList_injective equal)
    rw [toLower_of_digit digit] at heads
    rw [heads, other] at digit
    cases digit
  have nan := apart 'n' ['a', 'n'] rfl
  have inf := apart 'i' ['n', 'f'] rfl
  have infinity := apart 'i' ['n', 'f', 'i', 'n', 'i', 't', 'y'] rfl
  rw [namedNumber?, if_neg nan, if_neg]
  rw [Bool.or_eq_true, decide_eq_true_eq, decide_eq_true_eq]
  exact fun either => either.elim inf infinity

theorem stands_marked {sign : Char} (stands : Stands sign) (digits : Digits ds) :
    ∀ c ∈ 'e' :: sign :: ds, Stands c := by
  intro c member
  simp only [List.mem_cons] at member
  rcases member with rfl | rfl | member
  · exact ⟨by decide, by decide, by decide⟩
  · exact stands
  · exact stands_of_digit (digits c member)

theorem Marks.stands {mark : List Char} {exponent : Int} (marks : Marks mark exponent) :
    ∀ c ∈ mark, Stands c := by
  cases marks with
  | none => exact nofun
  | up digits _ => exact stands_marked ⟨by decide, by decide, by decide⟩ digits
  | down digits _ => exact stands_marked ⟨by decide, by decide, by decide⟩ digits

theorem stands_pointed (digits : Digits ds) : ∀ c ∈ pointed ds, Stands c := by
  cases ds with
  | nil => exact nofun
  | cons d ds =>
      intro c member
      rcases List.mem_cons.1 member with rfl | member
      · exact ⟨by decide, by decide, by decide⟩
      · exact stands_of_digit (digits c member)

namespace Spells

variable {text mark : List Char} {sp : Spelling}

theorem stands (spells : Spells text sp mark) (negative : Bool) :
    ∀ c ∈ signed negative text, Stands c := by
  have unsigned : ∀ c ∈ text, Stands c := by
    rw [spells.text_eq]
    intro c member
    rcases List.mem_append.1 member with member | member
    · exact stands_of_digit (spells.whole c member)
    · rcases List.mem_append.1 member with member | member
      · exact stands_pointed spells.fraction c member
      · exact spells.marks.stands c member
  cases negative with
  | false => exact unsigned
  | true =>
      intro c member
      rcases List.mem_cons.1 member with rfl | member
      · exact ⟨by decide, by decide, by decide⟩
      · exact unsigned c member

theorem exists_digit (spells : Spells text sp mark) :
    ∃ c s, text = c :: s ∧ c.isDigit = true := by
  obtain ⟨c, s, whole⟩ := List.exists_cons_of_ne_nil spells.nonempty
  refine ⟨c, s ++ (pointed sp.fraction ++ mark), ?_, spells.whole c ?_⟩
  · rw [spells.text_eq, whole, List.cons_append]
  · rw [whole]
    exact List.mem_cons_self

theorem read?_eq (spells : Spells text sp mark) (negative : Bool) :
    read? (signed negative text) = some (sp.value negative) := by
  have stands := spells.stands negative
  obtain ⟨c, s, front, digit⟩ := spells.exists_digit
  have minus : c ≠ '-' := by
    rintro rfl
    cases digit
  have plus : c ≠ '+' := by
    rintro rfl
    cases digit
  simp only [read?, plainDigit_of_stands stands, trim_of_stands stands,
    dropUnderscores?_of_stands stands]
  have named := namedNumber?_of_digit negative digit s
  have spelled := spells.spelling_eq
  rw [front] at spelled ⊢
  cases negative with
  | false => simp [signed, minus, plus, named, spelled]
  | true => simp [signed, named, spelled]

end Spells

/-! ## Decimals as they are written -/

variable {x : Float}

/-- Whether digits start with no idle zero. -/
def Leads (ds : List Char) : Prop :=
  ds = ['0'] ∨ ∃ c s, ds = c :: s ∧ c ≠ '0'

theorem leads_digitsOf (n : Nat) : Leads (digitsOf n) := by
  by_cases zero : n = 0
  · exact .inl (by rw [zero]; rfl)
  · exact .inr (digitsOf_cons zero)

theorem digitsValue_zeros (n : Nat) : digitsValue (List.replicate n '0') = 0 := by
  induction n with
  | zero => rfl
  | succ n ih =>
      rw [List.replicate_succ']
      simp only [digitsValue, List.foldl_append] at ih ⊢
      rw [ih]
      rfl

/-- Digits with zeros in front, one more than there are places. -/
def padded (places d : Nat) : List Char :=
  List.replicate (places + 1 - (digitsOf d).length) '0' ++ digitsOf d

theorem digits_padded (places d : Nat) : Digits (padded places d) :=
  digits_append (digits_zeros _) (digits_digitsOf d)

theorem places_lt_padded (places d : Nat) : places < (padded places d).length := by
  simp only [padded, List.length_append, List.length_replicate]
  omega

/-- What is left of the places is a zero, or it has no idle zero. -/
theorem leads_padded (places d : Nat) :
    Leads ((padded places d).take ((padded places d).length - places)) := by
  by_cases few : (digitsOf d).length ≤ places
  · obtain ⟨zeros, more⟩ := Nat.exists_eq_succ_of_ne_zero
      (Nat.sub_ne_zero_of_lt (Nat.lt_succ_of_le few))
    have length : (padded places d).length - places = 1 := by
      simp only [padded, List.length_append, List.length_replicate]
      omega
    refine .inl ?_
    rw [length, padded, more, List.replicate_succ]
    rfl
  · have same : padded places d = digitsOf d := by
      rw [padded, Nat.sub_eq_zero_of_le (by omega)]
      rfl
    obtain ⟨rest, more⟩ := Nat.exists_eq_succ_of_ne_zero
      (Nat.sub_ne_zero_of_lt (places_lt_padded places d))
    rw [more, same]
    rcases leads_digitsOf d with zero | ⟨c, s, front, lead⟩
    · exact .inl (by rw [zero, List.take_succ_cons, List.take_nil])
    · exact .inr ⟨c, s.take rest, by rw [front]; rfl, lead⟩

theorem spells_whole {s : Scientific} (above : 0 ≤ s.exponent) :
    Spells (positional s)
      ⟨digitsOf s.digits ++ List.replicate s.exponent.toNat '0', ['0'], 0⟩ [] where
  text_eq := by simp [positional, above, pointed]
  marks := .none
  whole := digits_append (digits_digitsOf _) (digits_zeros _)
  nonempty := List.append_ne_nil_of_left_ne_nil (digitsOf_ne_nil _) _
  fraction := digits_zeros 1
  real := .inl (List.cons_ne_nil _ _)

theorem spells_places {s : Scientific} (below : s.exponent < 0) :
    Spells (positional s)
      ⟨(padded (-s.exponent).toNat s.digits).take
          ((padded (-s.exponent).toNat s.digits).length - (-s.exponent).toNat),
        (padded (-s.exponent).toNat s.digits).drop
          ((padded (-s.exponent).toNat s.digits).length - (-s.exponent).toNat), 0⟩ [] := by
  -- the padding leaves a digit in front of the point
  have length := places_lt_padded (-s.exponent).toNat s.digits
  have digits := digits_padded (-s.exponent).toNat s.digits
  have some : (padded (-s.exponent).toNat s.digits).drop
      ((padded (-s.exponent).toNat s.digits).length - (-s.exponent).toNat) ≠ [] := by
    rw [Ne, List.drop_eq_nil_iff]
    omega
  refine ⟨?_, .none, fun c member => digits c (List.mem_of_mem_take member), ?_,
    fun c member => digits c (List.mem_of_mem_drop member), .inl some⟩
  · obtain ⟨c, s', fraction⟩ := List.exists_cons_of_ne_nil some
    dsimp only
    rw [positional, if_neg (Int.not_le.2 below)]
    simp only [fraction, pointed, List.append_nil]
    rw [← fraction]
    rfl
  · rw [Ne, List.take_eq_nil_iff]
    rintro (none | none)
    · omega
    · rw [none] at length
      cases length

/-- Positional notation spells a decimal. It has idle zeros only if it is a zero with an exponent,
    and then it is a zero all the same. -/
theorem spells_positional (s : Scientific) :
    ∃ sp, Spells (positional s) sp [] ∧ (Leads sp.whole ∨ s.digits = 0 ∧ s.exponent ≠ 0 ∧
      digitsValue (sp.whole ++ sp.fraction) = 0) := by
  by_cases below : s.exponent < 0
  · exact ⟨_, spells_places below, .inl (leads_padded _ _)⟩
  · refine ⟨_, spells_whole (Int.not_lt.1 below), ?_⟩
    by_cases zero : s.digits = 0
    · by_cases none : s.exponent = 0
      · exact .inl (.inl (by rw [zero, none]; rfl))
      · have zeros : digitsOf s.digits ++ List.replicate s.exponent.toNat '0' ++ ['0'] =
            List.replicate (s.exponent.toNat + 2) '0' := by
          rw [zero, List.replicate_succ', List.replicate_succ]
          rfl
        refine .inr ⟨zero, none, ?_⟩
        rw [zeros, digitsValue_zeros]
    · obtain ⟨c, ds, front, lead⟩ := digitsOf_cons zero
      exact .inl (.inr ⟨c, _, by rw [front]; rfl, lead⟩)

/-- The mark of an exponent. -/
def markOf (exponent : Int) : List Char :=
  'e' :: (if exponent < 0 then '-' else '+') ::
    (List.replicate (2 - (digitsOf exponent.natAbs).length) '0' ++ digitsOf exponent.natAbs)

theorem marks_markOf (exponent : Int) : ∃ e, Marks (markOf exponent) e := by
  have digits := digits_append (digits_zeros (2 - (digitsOf exponent.natAbs).length))
    (digits_digitsOf exponent.natAbs)
  have some := List.append_ne_nil_of_right_ne_nil
    (List.replicate (2 - (digitsOf exponent.natAbs).length) '0') (digitsOf_ne_nil exponent.natAbs)
  rw [markOf]
  split
  · exact ⟨_, .down digits some⟩
  · exact ⟨_, .up digits some⟩

/-- Notation with an exponent spells a decimal without idle zeros. -/
theorem spells_exponential {s : Scientific} (some : s.digits ≠ 0) :
    ∃ sp mark, Spells (exponential false s) sp mark ∧ Leads sp.whole := by
  obtain ⟨c, ds, front, lead⟩ := digitsOf_cons some
  have digits := digits_digitsOf s.digits
  rw [front] at digits
  obtain ⟨e, marks⟩ := marks_markOf (s.exponent + ds.length)
  refine ⟨⟨[c], ds, e⟩, _, ⟨?_, marks, ?_, List.cons_ne_nil _ _, ?_, .inr (List.cons_ne_nil _ _)⟩,
    .inr ⟨c, [], rfl, lead⟩⟩
  · rw [exponential, front]
    cases ds <;> simp [pointed, markOf]
  · intro d member
    rw [List.mem_singleton.1 member]
    exact digits c List.mem_cons_self
  · exact fun d member => digits d (List.mem_cons_of_mem c member)

theorem parts_zero (negative : Bool) :
    parts (ofBits negative 0) = .finite ⟨negative, 0, -1074⟩ := by
  cases negative <;> rfl

theorem value_of_zeros {sp : Spelling} (zeros : digitsValue (sp.whole ++ sp.fraction) = 0)
    (negative : Bool) : sp.value negative = ofBits negative 0 := by
  rw [Spelling.value, zeros, ofScientific, if_pos rfl]

theorem write_nan (kind : parts x = .nan) : Style.json.write x = "NaN" := by
  rw [Style.write, kind]
  rfl

theorem write_infinite {negative : Bool} (kind : parts x = .infinite negative) :
    Style.json.write x = String.ofList (signed negative "Infinity".toList) := by
  rw [Style.write, kind]
  rfl

/-- A finite double is written as it is spelled, without idle zeros unless it is written as a zero
    and is none. -/
theorem spells_write {number : Binary64} (finite : parts x = .finite number) :
    ∃ text sp mark, Style.json.write x = String.ofList (signed number.negative text) ∧
      Spells text sp mark ∧
      (Leads sp.whole ∨ number.mantissa ≠ 0 ∧ digitsValue (sp.whole ++ sp.fraction) = 0) := by
  rw [Style.write, finite]
  dsimp only
  split
  · obtain ⟨sp, spells, leads⟩ := spells_positional (shortest number)
    refine ⟨_, sp, [], rfl, spells, leads.imp_right ?_⟩
    rintro ⟨-, exponent, value⟩
    refine ⟨fun zero => exponent ?_, value⟩
    rw [shortest, if_pos zero]
  · next positional =>
      have some : (shortest number).digits ≠ 0 := by
        intro zero
        simp [zero] at positional
      obtain ⟨sp, mark, spells, leads⟩ := spells_exponential some
      exact ⟨_, sp, mark, rfl, spells, .inl leads⟩

end CallProfile.Decimal
