import CallProfile.Proofs.Numbers
import CallProfile.Proofs.Strings

/-! # Documents

What is written as a document reads back as it was, at every indentation. Whole numbers must not
have too many digits, doubles must read back where they stand alone, and an object must not have
two members of one name.
-/

namespace CallProfile.Json

open Decimal

variable {rest : List Char} {d : Datum}

/-- The members of an object by name. -/
def named (members : List (String × Datum)) : List (Datum × Datum) :=
  members.map fun m => (.text m.1, m.2)

/-- Whether a value can be written so that it reads back. -/
inductive Plain : Datum → Prop
  | null : Plain .null
  | bool (b : Bool) : Plain (.bool b)
  | int {n : Int} (few : digitCount n.natAbs ≤ Datum.digitLimit) : Plain (.int n)
  | real {x : Float} (reads : read? (Style.json.write x).toList = some x) : Plain (.real x)
  | text (s : String) : Plain (.text s)
  | list {items : List Datum} (each : ∀ d ∈ items, Plain d) : Plain (.list items)
  | map {members : List (String × Datum)} (distinct : (members.map (·.1)).Nodup)
      (each : ∀ m ∈ members, Plain m.2) : Plain (.map (named members))

/-- Whether what is written of a value reads back, whatever ends it. -/
structure Reads (d : Datum) : Prop where
  starts : ∀ indent depth, ∃ c s, (writeAt indent depth d).toList = c :: s ∧ isBlank c = false ∧
    c ≠ ']' ∧ c ≠ '\uFEFF'
  value : ∀ indent depth fuel rest, (writeAt indent depth d).toList.length ≤ fuel →
    EndsNumber rest → value fuel ((writeAt indent depth d).toList ++ rest) = .ok (d, rest)

/-! ## Words, numbers and strings -/

/-- Whether a character starts a word or a number. -/
def StartsAtom (c : Char) : Prop :=
  c.isDigit = true ∨ c ∈ ['-', 'n', 't', 'f', 'N', 'I']

theorem StartsAtom.other {c : Char} (start : StartsAtom c) :
    isBlank c = false ∧ c ≠ ']' ∧ c ≠ '\uFEFF' ∧ c ≠ '\x22' ∧ c ≠ '[' ∧ c ≠ '\x7b' := by
  rcases start with digit | member
  · have range := isDigit_iff.1 digit
    have apart : ∀ e : Char, e.isDigit = false → c ≠ e := by
      rintro e none rfl
      rw [none] at digit
      cases digit
    refine ⟨?_, apart _ rfl, apart _ rfl, apart _ rfl, apart _ rfl, apart _ rfl⟩
    simp [isBlank, apart ' ' rfl, apart '\t' rfl, apart '\n' rfl, apart '\r' rfl]
  · simp only [List.mem_cons, List.not_mem_nil, or_false] at member
    rcases member with rfl | rfl | rfl | rfl | rfl | rfl <;> decide

theorem reads_atom (text : List Char) (written : ∀ indent depth,
      (writeAt indent depth d).toList = text) (start : ∃ c s, text = c :: s ∧ StartsAtom c)
    (read : ∀ rest, EndsNumber rest → atom (text ++ rest) = .ok (d, rest)) : Reads d := by
  obtain ⟨c, s, rfl, start⟩ := start
  obtain ⟨blank, bracket, mark, quote, square, curly⟩ := start.other
  refine ⟨fun indent depth => ⟨c, s, written indent depth, blank, bracket, mark⟩, ?_⟩
  intro indent depth fuel rest enough ends
  rw [written] at enough ⊢
  obtain ⟨fuel, rfl⟩ := Nat.exists_eq_succ_of_ne_zero (Nat.ne_zero_of_lt enough)
  have atom := read rest ends
  rw [List.cons_append] at atom ⊢
  simp [value, quote, square, curly, atom]

theorem reads_null : Reads .null :=
  reads_atom ['n', 'u', 'l', 'l'] (fun _ _ => by rw [writeAt]; rfl)
    ⟨_, _, rfl, .inr (by decide)⟩ fun _ _ => rfl

theorem reads_bool (b : Bool) : Reads (.bool b) := by
  cases b with
  | false =>
      exact reads_atom ['f', 'a', 'l', 's', 'e'] (fun _ _ => by rw [writeAt]; rfl)
        ⟨_, _, rfl, .inr (by decide)⟩ fun _ _ => rfl
  | true =>
      exact reads_atom ['t', 'r', 'u', 'e'] (fun _ _ => by rw [writeAt]; rfl)
        ⟨_, _, rfl, .inr (by decide)⟩ fun _ _ => rfl

theorem startsAtom_signed {text : List Char} (negative : Bool)
    (first : ∃ c s, text = c :: s ∧ c.isDigit = true) :
    ∃ c s, signed negative text = c :: s ∧ StartsAtom c := by
  obtain ⟨c, s, rfl, digit⟩ := first
  cases negative with
  | false => exact ⟨c, s, rfl, .inl digit⟩
  | true => exact ⟨'-', _, rfl, .inr (by decide)⟩

theorem reads_int {n : Int} (few : digitCount n.natAbs ≤ Datum.digitLimit) : Reads (.int n) := by
  refine reads_atom _ (fun _ _ => rfl) ?_ fun rest ends => atom_int few ends
  rw [toList_toString]
  exact startsAtom_signed _ (exists_digit_digitsOf _)

theorem reads_real {x : Float} (reads : read? (Style.json.write x).toList = some x) :
    Reads (.real x) := by
  refine reads_atom _ (fun _ _ => rfl) ?_ fun rest ends => atom_real reads ends
  cases kind : parts x with
  | nan => exact ⟨'N', _, by rw [write_nan kind]; rfl, .inr (by decide)⟩
  | infinite negative =>
      rw [write_infinite kind, String.toList_ofList]
      cases negative with
      | false => exact ⟨'I', _, rfl, .inr (by decide)⟩
      | true => exact ⟨'-', _, rfl, .inr (by decide)⟩
  | finite number =>
      obtain ⟨text, sp, mark, written, spells, -⟩ := spells_write kind
      rw [written, String.toList_ofList]
      exact startsAtom_signed _ spells.exists_digit

theorem reads_text (s : String) : Reads (.text s) := by
  have text : (writeText s).toList = '\x22' :: (s.toList.flatMap escaped ++ ['\x22']) := by
    simpa using writeText_append s []
  refine ⟨fun indent depth => ⟨'\x22', _, text, by decide, by decide, by decide⟩, ?_⟩
  intro indent depth fuel rest enough _
  have written : (writeAt indent depth (.text s)).toList = (writeText s).toList := rfl
  rw [written] at enough ⊢
  rw [text, List.length_cons] at enough
  obtain ⟨fuel, rfl⟩ := Nat.exists_eq_succ_of_ne_zero (Nat.ne_zero_of_lt enough)
  rw [writeText_append]
  simp only [value, string_text, bind, Except.bind, pure, Except.pure]

/-! ## Lists and objects -/

section Collections

variable {indent : Option Nat} {depth : Nat}

theorem skip_append {blanks : List Char} (blank : ∀ c ∈ blanks, isBlank c = true)
    (s : List Char) : skip (blanks ++ s) = skip s :=
  List.dropWhile_append_of_pos blank

theorem skip_cons {c : Char} (other : isBlank c = false) (s : List Char) :
    skip (c :: s) = c :: s :=
  List.dropWhile_cons_of_neg (by rw [other]; exact Bool.false_ne_true)

theorem blank_lineStart (indent : Option Nat) (depth : Nat) :
    ∀ c ∈ (lineStart indent depth).toList, isBlank c = true := by
  cases indent with
  | none => exact nofun
  | some width =>
      intro c member
      rw [lineStart, String.toList_ofList] at member
      rcases List.mem_cons.1 member with rfl | member
      · rfl
      · rw [List.eq_of_mem_replicate member]
        rfl

theorem separator_eq (indent : Option Nat) (depth : Nat) :
    ∃ gap, (separator indent depth).toList = ',' :: gap ∧ ∀ c ∈ gap, isBlank c = true := by
  cases indent with
  | none => exact ⟨[' '], by rw [separator]; rfl, by simp [isBlank]⟩
  | some width =>
      exact ⟨_, String.toList_append .., blank_lineStart (some width) depth⟩

theorem intercalate_cons {α : Type} (separator item : List α) (items : List (List α)) :
    separator.intercalate (item :: items) = item ++ items.flatMap (separator ++ ·) := by
  induction items generalizing item with
  | nil => simp
  | cons next items ih => simp [List.intercalate_cons_cons, ih]

/-- Texts behind another one, each after a comma and a gap. -/
def following (gap : List Char) (texts : List (List Char)) : List Char :=
  texts.flatMap fun t => ',' :: (gap ++ t)

theorem following_cons (gap text : List Char) (texts : List (List Char)) :
    following gap (text :: texts) = ',' :: (gap ++ (text ++ following gap texts)) := by
  simp [following]

theorem toList_bracketed (indent : Option Nat) (depth : Nat) (left right item : String)
    (items : List String) :
    ∃ gap, (∀ c ∈ gap, isBlank c = true) ∧
      (bracketed indent depth left right (item :: items)).toList =
        left.toList ++ ((lineStart indent (depth + 1)).toList ++ (item.toList ++
          (following gap (items.map (·.toList)) ++
            ((lineStart indent depth).toList ++ right.toList)))) := by
  obtain ⟨gap, comma, idle⟩ := separator_eq indent (depth + 1)
  refine ⟨gap, idle, ?_⟩
  simp [bracketed, String.toList_append, String.toList_intercalate, intercalate_cons, comma,
    following, List.append_assoc]

theorem writeItems_eq (items : List Datum) :
    writeItems indent depth items = items.map (writeAt indent depth) := by
  induction items with
  | nil => rfl
  | cons item items ih => rw [writeItems, ih, List.map_cons]

theorem endsNumber_cons {c : Char} (digit : c.isDigit = false) (point : c ≠ '.') (small : c ≠ 'e')
    (great : c ≠ 'E') (rest : List Char) : EndsNumber (c :: rest) := by
  intro d first
  cases first
  exact ⟨digit, point, small, great⟩

theorem endsNumber_blank {blanks : List Char} (blank : ∀ c ∈ blanks, isBlank c = true)
    (ends : EndsNumber rest) : EndsNumber (blanks ++ rest) := by
  cases blanks with
  | nil => exact ends
  | cons c blanks =>
      have first := blank c List.mem_cons_self
      simp only [isBlank, Bool.or_eq_true, decide_eq_true_eq] at first
      rcases first with ((rfl | rfl) | rfl) | rfl <;>
        exact endsNumber_cons rfl (by decide) (by decide) (by decide) _

theorem skip_item (reads : Reads d) (indent : Option Nat) (depth : Nat) (s : List Char) :
    skip ((writeAt indent depth d).toList ++ s) = (writeAt indent depth d).toList ++ s := by
  obtain ⟨c, t, text, other, -⟩ := reads.starts indent depth
  rw [text, List.cons_append, skip_cons other]

theorem elements_items {item : Datum} {items : List Datum} (first : Reads item)
    (each : ∀ d ∈ items, Reads d) {gap blanks : List Char} (idle : ∀ c ∈ gap, isBlank c = true)
    (blank : ∀ c ∈ blanks, isBlank c = true) (rest : List Char) {fuel : Nat}
    (enough : (writeAt indent depth item).toList.length +
      (following gap (items.map fun d => (writeAt indent depth d).toList)).length < fuel) :
    elements fuel ((writeAt indent depth item).toList ++
      (following gap (items.map fun d => (writeAt indent depth d).toList) ++
        (blanks ++ ']' :: rest))) = .ok (item :: items, rest) := by
  -- over the items behind the first one, which ends at a blank, the bracket or a comma
  induction items generalizing item fuel with
  | nil =>
      obtain ⟨fuel, rfl⟩ := Nat.exists_eq_succ_of_ne_zero (Nat.ne_zero_of_lt enough)
      have ends : EndsNumber (blanks ++ ']' :: rest) :=
        endsNumber_blank blank (endsNumber_cons rfl (by decide) (by decide) (by decide) rest)
      have read := first.value indent depth fuel _ (by omega) ends
      have bracket : isBlank ']' = false := rfl
      rw [List.map_nil, following, List.flatMap_nil, List.nil_append, elements, read]
      simp only [bind, Except.bind, skip_append blank, skip_cons bracket]
      rfl
  | cons next items ih =>
      obtain ⟨fuel, rfl⟩ := Nat.exists_eq_succ_of_ne_zero (Nat.ne_zero_of_lt enough)
      have second := each next List.mem_cons_self
      rw [List.map_cons, following_cons] at enough ⊢
      simp only [List.length_append, List.length_cons] at enough
      have less : (writeAt indent depth next).toList.length +
          (following gap (items.map fun d => (writeAt indent depth d).toList)).length < fuel := by
        omega
      have behind := ih second (fun d member => each d (List.mem_cons_of_mem next member)) less
      have comma : ∀ s, EndsNumber (',' :: s) := fun s =>
        endsNumber_cons rfl (by decide) (by decide) (by decide) s
      rw [List.cons_append, elements, first.value indent depth fuel _ (by omega) (comma _)]
      simp only [bind, Except.bind, skip_cons (show isBlank ',' = false from rfl),
        List.append_assoc, skip_append idle, skip_item second, behind]
      rfl

theorem reads_list {items : List Datum} (each : ∀ d ∈ items, Reads d) : Reads (.list items) := by
  cases items with
  | nil =>
      have text : ∀ indent depth, (writeAt indent depth (.list [])).toList = ['[', ']'] := by
        intro indent depth
        rw [writeAt, writeItems, bracketed]
        rfl
      refine ⟨fun indent depth => ⟨'[', _, text indent depth, rfl, by decide, by decide⟩, ?_⟩
      intro indent depth fuel rest enough _
      rw [text] at enough ⊢
      obtain ⟨fuel, rfl⟩ := Nat.exists_eq_succ_of_ne_zero (Nat.ne_zero_of_lt enough)
      rfl
  | cons item items =>
      have first := each item List.mem_cons_self
      have others := fun d member => each d (List.mem_cons_of_mem item member)
      have text : ∀ indent depth, ∃ gap, (∀ c ∈ gap, isBlank c = true) ∧
          (writeAt indent depth (.list (item :: items))).toList =
            '[' :: ((lineStart indent (depth + 1)).toList ++
              ((writeAt indent (depth + 1) item).toList ++
                (following gap (items.map fun d => (writeAt indent (depth + 1) d).toList) ++
                  ((lineStart indent depth).toList ++ [']'])))) := by
        intro indent depth
        rw [writeAt, writeItems, writeItems_eq]
        obtain ⟨gap, idle, text⟩ := toList_bracketed indent depth "[" "]"
          (writeAt indent (depth + 1) item) (items.map (writeAt indent (depth + 1)))
        rw [List.map_map] at text
        exact ⟨gap, idle, text⟩
      refine ⟨fun indent depth => ?_, ?_⟩
      · obtain ⟨gap, -, text⟩ := text indent depth
        exact ⟨'[', _, text, rfl, by decide, by decide⟩
      · intro indent depth fuel rest enough _
        obtain ⟨gap, idle, text⟩ := text indent depth
        rw [text] at enough ⊢
        obtain ⟨fuel, rfl⟩ := Nat.exists_eq_succ_of_ne_zero (Nat.ne_zero_of_lt enough)
        simp only [List.length_cons, List.length_append, List.length_nil] at enough
        have less : (writeAt indent (depth + 1) item).toList.length +
            (following gap (items.map fun d => (writeAt indent (depth + 1) d).toList)).length <
              fuel := by
          omega
        have read := elements_items first others idle (blank_lineStart indent depth) rest less
        obtain ⟨c, t, front, -, bracket, -⟩ := first.starts indent (depth + 1)
        simp only [List.cons_append, List.append_assoc, List.nil_append, value,
          skip_append (blank_lineStart indent (depth + 1)), skip_item first]
        rw [front] at read ⊢
        simp only [List.cons_append] at read ⊢
        simp [bracket, read, bind, Except.bind, pure, Except.pure]

theorem put_named {name : String} {members : List (String × Datum)}
    (new : name ∉ members.map (·.1)) (value : Datum) :
    Datum.put name value (named members) = named (members ++ [(name, value)]) := by
  induction members with
  | nil => rfl
  | cons m members ih =>
      rw [List.map_cons, List.mem_cons, not_or] at new
      have key : (Datum.text m.1).isText name = false := decide_eq_false fun same => new.1 same.symm
      have rest := ih new.2
      rw [named] at rest ⊢
      rw [List.map_cons, Datum.put, key, rest]
      rfl

/-- A member as it stands in an object. -/
def memberText (indent : Option Nat) (depth : Nat) (m : String × Datum) : String :=
  writeText m.1 ++ ": " ++ writeAt indent depth m.2

theorem toList_memberText (indent : Option Nat) (depth : Nat) (m : String × Datum) :
    (memberText indent depth m).toList =
      (writeText m.1).toList ++ ':' :: ' ' :: (writeAt indent depth m.2).toList := by
  rw [memberText, String.toList_append, String.toList_append, List.append_assoc]
  rfl

theorem writeMembers_eq (members : List (String × Datum)) :
    writeMembers indent depth (named members) = members.map (memberText indent depth) := by
  induction members with
  | nil => rfl
  | cons m members ih =>
      rw [named, List.map_cons, writeMembers, List.map_cons, ← ih]
      rfl

theorem members_member {before : List (String × Datum)} {m : String × Datum}
    (new : m.1 ∉ before.map (·.1)) (reads : Reads m.2) {s : List Char} (ends : EndsNumber s)
    {fuel : Nat} (enough : (memberText indent depth m).toList.length ≤ fuel) :
    members (fuel + 1) (named before) ((memberText indent depth m).toList ++ s) =
      match skip s with
      | '\x7d' :: rest => .ok (.map (named (before ++ [m])), rest)
      | ',' :: rest => members fuel (named (before ++ [m])) (skip rest)
      | rest => .error (.at .comma rest.length) := by
  simp only [toList_memberText, List.length_append, List.length_cons] at enough
  have read := reads.value indent depth fuel s (by omega) ends
  have colon : isBlank ':' = false := rfl
  have space : ∀ c ∈ [' '], isBlank c = true := by simp [isBlank]
  have gap : skip (' ' :: ((writeAt indent depth m.2).toList ++ s)) =
      (writeAt indent depth m.2).toList ++ s :=
    (skip_append space _).trans (skip_item reads indent depth s)
  rw [toList_memberText, List.append_assoc, writeText_append]
  simp only [members, string_text, bind, Except.bind, List.cons_append, skip_cons colon, gap, read,
    put_named new]
  generalize skip s = t
  split <;> simp_all [pure, Except.pure]

theorem new_of_nodup {before later : List (String × Datum)} {m : String × Datum}
    (distinct : ((before ++ m :: later).map (·.1)).Nodup) : m.1 ∉ before.map (·.1) := by
  rw [List.map_append, List.nodup_append] at distinct
  exact fun member => distinct.2.2 _ member _ List.mem_cons_self rfl

theorem skip_memberText (m : String × Datum) (s : List Char) :
    skip ((memberText indent depth m).toList ++ s) = (memberText indent depth m).toList ++ s := by
  rw [toList_memberText, List.append_assoc, writeText_append, skip_cons]
  rfl

theorem members_named {before later : List (String × Datum)} {m : String × Datum}
    (distinct : ((before ++ m :: later).map (·.1)).Nodup) (first : Reads m.2)
    (each : ∀ n ∈ later, Reads n.2) {gap blanks : List Char} (idle : ∀ c ∈ gap, isBlank c = true)
    (blank : ∀ c ∈ blanks, isBlank c = true) (rest : List Char) {fuel : Nat}
    (enough : (memberText indent depth m).toList.length +
      (following gap (later.map fun n => (memberText indent depth n).toList)).length < fuel) :
    members fuel (named before) ((memberText indent depth m).toList ++
      (following gap (later.map fun n => (memberText indent depth n).toList) ++
        (blanks ++ '\x7d' :: rest))) = .ok (.map (named (before ++ m :: later)), rest) := by
  -- over the members behind the first one, which joins those before it
  induction later generalizing before m fuel with
  | nil =>
      obtain ⟨fuel, rfl⟩ := Nat.exists_eq_succ_of_ne_zero (Nat.ne_zero_of_lt enough)
      have ends : EndsNumber (blanks ++ '\x7d' :: rest) :=
        endsNumber_blank blank (endsNumber_cons rfl (by decide) (by decide) (by decide) rest)
      have brace : isBlank '\x7d' = false := rfl
      rw [List.map_nil, following, List.flatMap_nil, List.nil_append]
      refine (members_member (new_of_nodup distinct) first ends (by omega)).trans ?_
      rw [skip_append blank, skip_cons brace]
      rfl
  | cons next later ih =>
      obtain ⟨fuel, rfl⟩ := Nat.exists_eq_succ_of_ne_zero (Nat.ne_zero_of_lt enough)
      have second := each next List.mem_cons_self
      have comma : ∀ s, EndsNumber (',' :: s) := fun s =>
        endsNumber_cons rfl (by decide) (by decide) (by decide) s
      have distinct' : ((before ++ [m] ++ next :: later).map (·.1)).Nodup := by
        rw [List.append_assoc]
        exact distinct
      rw [List.map_cons, following_cons] at enough ⊢
      simp only [List.length_append, List.length_cons] at enough
      have less : (memberText indent depth next).toList.length +
          (following gap (later.map fun n => (memberText indent depth n).toList)).length <
            fuel := by
        omega
      have behind := ih distinct' second (fun n member => each n (List.mem_cons_of_mem next member))
        less
      rw [List.cons_append]
      refine (members_member (new_of_nodup distinct) first (comma _) (by omega)).trans ?_
      simp only [skip_cons (show isBlank ',' = false from rfl), List.append_assoc,
        skip_append idle, skip_memberText]
      rw [behind, List.append_assoc]
      rfl

theorem reads_map {entries : List (String × Datum)} (distinct : (entries.map (·.1)).Nodup)
    (each : ∀ m ∈ entries, Reads m.2) : Reads (.map (named entries)) := by
  cases entries with
  | nil =>
      have text : ∀ indent depth,
          (writeAt indent depth (.map (named []))).toList = ['\x7b', '\x7d'] := by
        intro indent depth
        rw [named, List.map_nil, writeAt, writeMembers, bracketed]
        rfl
      refine ⟨fun indent depth => ⟨'\x7b', _, text indent depth, rfl, by decide, by decide⟩, ?_⟩
      intro indent depth fuel rest enough _
      rw [text] at enough ⊢
      obtain ⟨fuel, rfl⟩ := Nat.exists_eq_succ_of_ne_zero (Nat.ne_zero_of_lt enough)
      rfl
  | cons m entries =>
      have first := each m List.mem_cons_self
      have others := fun n member => each n (List.mem_cons_of_mem m member)
      have text : ∀ indent depth, ∃ gap, (∀ c ∈ gap, isBlank c = true) ∧
          (writeAt indent depth (.map (named (m :: entries)))).toList =
            '\x7b' :: ((lineStart indent (depth + 1)).toList ++
              ((memberText indent (depth + 1) m).toList ++
                (following gap (entries.map fun n => (memberText indent (depth + 1) n).toList) ++
                  ((lineStart indent depth).toList ++ ['\x7d'])))) := by
        intro indent depth
        rw [writeAt, writeMembers_eq]
        obtain ⟨gap, idle, text⟩ := toList_bracketed indent depth "\x7b" "\x7d"
          (memberText indent (depth + 1) m) (entries.map (memberText indent (depth + 1)))
        rw [List.map_map] at text
        exact ⟨gap, idle, text⟩
      refine ⟨fun indent depth => ?_, ?_⟩
      · obtain ⟨gap, -, text⟩ := text indent depth
        exact ⟨'\x7b', _, text, rfl, by decide, by decide⟩
      · intro indent depth fuel rest enough _
        obtain ⟨gap, idle, text⟩ := text indent depth
        rw [text] at enough ⊢
        obtain ⟨fuel, rfl⟩ := Nat.exists_eq_succ_of_ne_zero (Nat.ne_zero_of_lt enough)
        simp only [List.length_cons, List.length_append, List.length_nil] at enough
        have less : (memberText indent (depth + 1) m).toList.length +
            (following gap (entries.map fun n => (memberText indent (depth + 1) n).toList)).length <
              fuel := by
          omega
        have read : members fuel (named []) _ = .ok (.map (named (m :: entries)), rest) :=
          members_named distinct first others idle (blank_lineStart indent depth) rest less
        have front := (toList_memberText indent (depth + 1) m).trans (writeText_append _ _)
        simp only [List.cons_append, List.append_assoc, List.nil_append, value,
          skip_append (blank_lineStart indent (depth + 1)), skip_memberText]
        rw [front] at read ⊢
        exact read

end Collections

/-! ## Whole documents -/

theorem reads_of_plain (plain : Plain d) : Reads d := by
  induction plain with
  | null => exact reads_null
  | bool b => exact reads_bool b
  | int few => exact reads_int few
  | real reads => exact reads_real reads
  | text s => exact reads_text s
  | list _ ih => exact reads_list ih
  | map distinct _ ih => exact reads_map distinct ih

/-- What is written reads back. -/
theorem read_of_plain (indent : Option Nat) (plain : Plain d) : read (write indent d) = .ok d := by
  have reads := reads_of_plain plain
  obtain ⟨c, s, text, other, -, mark⟩ := reads.starts indent 0
  have item := reads.value indent 0 (2 * (write indent d).toList.length + 2) []
    (by rw [write]; omega) nofun
  rw [List.append_nil, write, text] at item
  have whole : document (write indent d).toList = .ok d := by
    rw [write, text]
    unfold document
    split
    case h_1 first => exact absurd (List.cons.inj first).1 mark
    case h_2 =>
      rw [skip_cons other, item]
      rfl
  rw [read, whole]

theorem eq_of_write {d e : Datum} (plain : Plain d) (plain' : Plain e)
    (same : write none d = write none e) : d = e := by
  have read := read_of_plain none plain
  rw [same, read_of_plain none plain'] at read
  exact (Except.ok.inj read).symm

/-! ## Values with short numbers -/

theorem areShort_iff {items : List Datum} :
    Datum.areShort items = true ↔ ∀ d ∈ items, d.isShort = true := by
  induction items with
  | nil => exact iff_of_true rfl fun _ none => (List.not_mem_nil none).elim
  | cons item items ih => rw [Datum.areShort, Bool.and_eq_true, ih, List.forall_mem_cons]

theorem areShortEntries_named {members : List (String × Datum)} :
    Datum.areShortEntries (named members) = true ↔ ∀ m ∈ members, m.2.isShort = true := by
  induction members with
  | nil => exact iff_of_true rfl fun _ none => (List.not_mem_nil none).elim
  | cons m members ih =>
      have first : Datum.isShort (.text m.1) = true := rfl
      rw [named, List.map_cons, Datum.areShortEntries, first, Bool.true_and, Bool.and_eq_true,
        List.forall_mem_cons, ← ih]
      rfl

theorem isShort_int_iff {n : Int} :
    Datum.isShort (.int n) = true ↔ digitCount n.natAbs ≤ Datum.digitLimit := by
  rw [Datum.isShort, decide_eq_true_eq]

theorem Plain.isShort {d : Datum} (plain : Plain d) : d.isShort = true := by
  induction plain with
  | int few => exact isShort_int_iff.2 few
  | list _ ih => exact areShort_iff.2 ih
  | map _ _ ih => exact areShortEntries_named.2 ih
  | _ => rfl

end CallProfile.Json
