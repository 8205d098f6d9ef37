import CallProfile.Proofs.Batches
import CallProfile.Proofs.Keys

/-! # Sums of profiles

Whether profiles can be added up, and to what, does not depend on how the sum is nested: there is
one rate that counts, the first that is not zero, and all else is added up at once. Profiles in
another order have the same sum, but for the order of its keys and lists.
-/

namespace CallProfile

open scoped Whole

variable {ν : Type}

/-! ## Rates -/

section Rates

variable [Zero ν] [DecidableEq ν]

/-- The first rate that is not zero. -/
def firstRate (rates : List ν) : ν :=
  (rates.find? (· ≠ 0)).getD 0

/-- Whether no two rates that are not zero differ. -/
def RatesAgree (rates : List ν) : Prop :=
  ∀ a ∈ rates, ∀ b ∈ rates, a ≠ 0 → b ≠ 0 → a = b

variable {rates other : List ν} {rate : ν}

theorem firstRate_append (rates other : List ν) :
    firstRate (rates ++ other) =
      if firstRate rates = 0 then firstRate other else firstRate rates := by
  rw [firstRate, List.find?_append, firstRate, firstRate]
  cases found : rates.find? (· ≠ 0) with
  | none => exact (if_pos rfl).symm
  | some rate =>
      have counts : rate ≠ 0 := by simpa using List.find?_some found
      exact (if_neg counts).symm

theorem firstRate_mem (counts : firstRate rates ≠ 0) : firstRate rates ∈ rates := by
  rw [firstRate] at counts ⊢
  cases found : rates.find? (· ≠ 0) with
  | none =>
      rw [found] at counts
      exact absurd rfl counts
  | some rate => exact List.mem_of_find?_eq_some found

theorem firstRate_singleton (rate : ν) : firstRate [rate] = rate := by
  by_cases none : rate = 0
  · simp [firstRate, none]
  · simp [firstRate, none]

theorem firstRate_eq_zero_iff : firstRate rates = 0 ↔ ∀ rate ∈ rates, rate = 0 := by
  constructor
  · intro none rate member
    rw [firstRate] at none
    cases found : rates.find? (· ≠ 0) with
    | none => simpa using List.find?_eq_none.1 found rate member
    | some first =>
        have counts : first ≠ 0 := by simpa using List.find?_some found
        rw [found] at none
        exact absurd none counts
  · intro zero
    by_contra counts
    exact counts (zero _ (firstRate_mem counts))

namespace RatesAgree

theorem eq_firstRate (agree : RatesAgree rates) (member : rate ∈ rates) (counts : rate ≠ 0) :
    rate = firstRate rates := by
  have first : firstRate rates ≠ 0 := fun none =>
    counts (firstRate_eq_zero_iff.1 none rate member)
  exact agree rate member _ (firstRate_mem first) counts first

omit [DecidableEq ν] in
theorem of_subset (agree : RatesAgree other) (inside : ∀ rate ∈ rates, rate ∈ other) :
    RatesAgree rates := by
  intro a first b second
  exact agree a (inside a first) b (inside b second)

omit [DecidableEq ν] in
theorem of_perm (agree : RatesAgree rates) (rearranged : rates.Perm other) : RatesAgree other :=
  agree.of_subset fun _ member => rearranged.mem_iff.2 member

/-- Rates that agree have the same first rate in every order. -/
theorem firstRate_perm (agree : RatesAgree rates) (rearranged : rates.Perm other) :
    firstRate rates = firstRate other := by
  by_cases counts : firstRate other = 0
  · rw [counts, firstRate_eq_zero_iff]
    intro rate member
    exact firstRate_eq_zero_iff.1 counts rate (rearranged.mem_iff.1 member)
  · exact (agree.eq_firstRate (rearranged.mem_iff.2 (firstRate_mem counts)) counts).symm

omit [DecidableEq ν] in
theorem singleton (rate : ν) : RatesAgree [rate] := by
  intro a first b second _ _
  rw [List.mem_singleton.1 first, List.mem_singleton.1 second]

theorem append_iff :
    RatesAgree (rates ++ other) ↔ RatesAgree rates ∧ RatesAgree other ∧
      (firstRate other = 0 ∨ firstRate rates = 0 ∨ firstRate rates = firstRate other) := by
  constructor
  · intro agree
    refine ⟨agree.of_subset fun _ => List.mem_append_left _,
      agree.of_subset fun _ => List.mem_append_right _, ?_⟩
    by_cases none : firstRate other = 0
    · exact .inl none
    by_cases start : firstRate rates = 0
    · exact .inr (.inl start)
    · refine .inr (.inr (agree _ ?_ _ ?_ start none))
      · exact List.mem_append_left _ (firstRate_mem start)
      · exact List.mem_append_right _ (firstRate_mem none)
  · rintro ⟨first, second, fits⟩
    -- what is left is one rate of either list, whichever comes first
    have beside : ∀ a ∈ rates, ∀ b ∈ other, a ≠ 0 → b ≠ 0 → a = b := by
      intro a left b right counts counts'
      have left := first.eq_firstRate left counts
      have right := second.eq_firstRate right counts'
      rcases fits with none | start | same
      · exact absurd (right.trans none) counts'
      · exact absurd (left.trans start) counts
      · rw [left, right, same]
    intro a left b right counts counts'
    rcases List.mem_append.1 left with left | left <;>
      rcases List.mem_append.1 right with right | right
    · exact first a left b right counts counts'
    · exact beside a left b right counts counts'
    · exact (beside b right a left counts' counts).symm
    · exact second a left b right counts counts'

end RatesAgree

end Rates

/-! ## The sum of a list -/

namespace Profile

/-- The rates of profiles. -/
def rates (profiles : List (Profile ν)) : List ν :=
  profiles.map (·.sampleRate)

theorem rates_append (profiles other : List (Profile ν)) :
    rates (profiles ++ other) = rates profiles ++ rates other :=
  List.map_append

theorem ext {p q : Profile ν} (samples : p.samples = q.samples) (buckets : p.buckets = q.buckets)
    (arcs : p.arcs = q.arcs) (unattributed : p.unattributed = q.unattributed)
    (sampleRate : p.sampleRate = q.sampleRate) (diagnostics : p.diagnostics = q.diagnostics)
    (sources : p.sources = q.sources) (blocks : p.blocks = q.blocks) : p = q := by
  cases p
  cases q
  simp_all

variable [AddCommMonoid ν]

theorem ofList_entries {κ : Type} [DecidableEq κ] (t : Tally κ ν) :
    Tally.ofList t.entries = t :=
  Tally.empty_merge t

variable [DecidableEq ν] {p q : Profile ν} {profiles other : List (Profile ν)}

/-- All that profiles have, added up at once. -/
def sumOf (profiles : List (Profile ν)) : Profile ν where
  samples := Tally.ofList (profiles.flatMap (·.samples.entries))
  buckets := Tally.ofList (profiles.flatMap (·.buckets.entries))
  arcs := Tally.ofList (profiles.flatMap (·.arcs.entries))
  unattributed := (profiles.map (·.unattributed)).sum
  sampleRate := firstRate (rates profiles)
  diagnostics := profiles.flatMap (·.diagnostics)
  sources := profiles.flatMap (·.sources)
  blocks := (profiles.map (·.blocks)).sum

@[simp] theorem sampleRate_sumOf : (sumOf profiles).sampleRate = firstRate (rates profiles) :=
  rfl

theorem sumOf_singleton (p : Profile ν) : sumOf [p] = p := by
  apply ext
  · simp [sumOf, ofList_entries]
  · simp [sumOf, ofList_entries]
  · simp [sumOf, ofList_entries]
  · simp [sumOf]
  · exact firstRate_singleton p.sampleRate
  · simp [sumOf]
  · simp [sumOf]
  · simp [sumOf]

/-- The sum of two profiles, the rate of the first being preferred. -/
def plus (p q : Profile ν) : Profile ν :=
  p.sumAt q (if p.sampleRate = 0 then q.sampleRate else p.sampleRate)

theorem sumOf_append (profiles other : List (Profile ν)) :
    sumOf (profiles ++ other) = (sumOf profiles).plus (sumOf other) := by
  apply ext
  · simp [sumOf, plus, sumAt, Tally.ofList_append]
  · simp [sumOf, plus, sumAt, Tally.ofList_append]
  · simp [sumOf, plus, sumAt, Tally.ofList_append]
  · simp [sumOf, plus, sumAt]
  · rw [sampleRate_sumOf, rates_append]
    exact firstRate_append (rates profiles) (rates other)
  · simp [sumOf, plus, sumAt]
  · simp [sumOf, plus, sumAt]
  · simp [sumOf, plus, sumAt]

theorem ratesAgree_append_singleton :
    RatesAgree (rates (profiles ++ [p])) ↔ RatesAgree (rates profiles) ∧
      (p.sampleRate = 0 ∨ firstRate (rates profiles) = 0 ∨
        firstRate (rates profiles) = p.sampleRate) := by
  have first : firstRate (rates [p]) = p.sampleRate := firstRate_singleton p.sampleRate
  rw [rates_append, RatesAgree.append_iff, first]
  exact and_congr_right fun _ => and_iff_right (.singleton p.sampleRate)

/-- Sums in place of the profiles that they are of. -/
theorem sumOf_cons_sumOf {profiles sums other : List (Profile ν)}
    (same : sumOf sums = sumOf other) :
    sumOf (sumOf profiles :: sums) = sumOf (profiles ++ other) := by
  rw [← List.singleton_append, sumOf_append, sumOf_append, sumOf_singleton, same]

theorem ratesAgree_cons_sumOf {profiles sums other : List (Profile ν)}
    (agree : RatesAgree (rates profiles)) (same : sumOf sums = sumOf other)
    (rest : RatesAgree (rates sums) ↔ RatesAgree (rates other)) :
    RatesAgree (rates (sumOf profiles :: sums)) ↔ RatesAgree (rates (profiles ++ other)) := by
  have first : firstRate (rates [sumOf profiles]) = firstRate (rates profiles) :=
    firstRate_singleton _
  have second : firstRate (rates sums) = firstRate (rates other) := congrArg sampleRate same
  rw [← List.singleton_append, rates_append, rates_append, RatesAgree.append_iff,
    RatesAgree.append_iff, first, second, rest]
  exact and_congr_left fun _ => iff_of_true (.singleton _) agree

omit [DecidableEq ν] in
theorem ratesAgree_iff : RatesAgree (rates profiles) ↔ ∀ p ∈ profiles, ∀ q ∈ profiles,
    p.sampleRate ≠ 0 → q.sampleRate ≠ 0 → p.sampleRate = q.sampleRate := by
  simp only [RatesAgree, rates, List.forall_mem_map]

/-! ## Other orders -/

/-- Whether two profiles have the same content, in any order. -/
structure Reordered (p q : Profile ν) : Prop where
  samples : p.samples.Reordered q.samples
  buckets : p.buckets.Reordered q.buckets
  arcs : p.arcs.Reordered q.arcs
  unattributed : p.unattributed = q.unattributed
  sampleRate : p.sampleRate = q.sampleRate
  diagnostics : p.diagnostics.Perm q.diagnostics
  sources : p.sources.Perm q.sources
  blocks : p.blocks = q.blocks

omit [DecidableEq ν] in
theorem Reordered.total (reordered : p.Reordered q) : p.total = q.total := by
  rw [Profile.total, Profile.total, attributed, attributed, reordered.samples.total,
    reordered.unattributed]

theorem reordered_sumOf (rearranged : profiles.Perm other)
    (agree : RatesAgree (rates profiles)) : (sumOf profiles).Reordered (sumOf other) where
  samples := Tally.reordered_ofList (rearranged.flatMap_right _)
  buckets := Tally.reordered_ofList (rearranged.flatMap_right _)
  arcs := Tally.reordered_ofList (rearranged.flatMap_right _)
  unattributed := (rearranged.map _).sum_eq
  sampleRate := agree.firstRate_perm (rearranged.map _)
  diagnostics := rearranged.flatMap_right _
  sources := rearranged.flatMap_right _
  blocks := (rearranged.map _).sum_eq

/-! ## Sums one after the other -/

variable [ToString ν]

theorem merge_append_singleton (profiles : List (Profile ν)) (p : Profile ν) :
    merge (profiles ++ [p]) = merge profiles >>= fun sum => sum.add p := by
  rw [merge, List.foldlM_append, merge]
  cases profiles.foldlM add empty with
  | error fault => rfl
  | ok sum => exact bind_pure (sum.add p)

theorem add_sumOf (profiles : List (Profile ν)) (p : Profile ν) :
    (sumOf profiles).add p =
      if p.sampleRate = 0 ∨ firstRate (rates profiles) = 0 ∨
          firstRate (rates profiles) = p.sampleRate then .ok (sumOf (profiles ++ [p]))
      else .error (.rates (toString (firstRate (rates profiles))) (toString p.sampleRate)) := by
  rw [add_eq, commonRate_eq, sampleRate_sumOf]
  split
  · rw [sumOf_append, sumOf_singleton]
    rfl
  · rfl

theorem merge_of_agree (agree : RatesAgree (rates profiles)) :
    merge profiles = .ok (sumOf profiles) := by
  induction profiles using List.reverseRecOn with
  | nil => rfl
  | append_singleton profiles p ih =>
      obtain ⟨agree, fits⟩ := ratesAgree_append_singleton.1 agree
      rw [merge_append_singleton, ih agree]
      exact (add_sumOf profiles p).trans (if_pos fits)

theorem merge_of_differ (differ : ¬RatesAgree (rates profiles)) :
    ∃ a b, merge profiles = .error (.rates a b) := by
  induction profiles using List.reverseRecOn with
  | nil => exact absurd (fun _ none => nomatch none) differ
  | append_singleton profiles p ih =>
      rw [ratesAgree_append_singleton] at differ
      rw [merge_append_singleton]
      by_cases agree : RatesAgree (rates profiles)
      · rw [merge_of_agree agree]
        have wrong := fun fits => differ ⟨agree, fits⟩
        exact ⟨_, _, (add_sumOf profiles p).trans (if_neg wrong)⟩
      · obtain ⟨a, b, failed⟩ := ih agree
        rw [failed]
        exact ⟨a, b, rfl⟩

/-! ## Nested sums -/

/-- A sum of profiles with sums among its parts. -/
inductive Nested (ν : Type) where
  | one (p : Profile ν)
  | sum (parts : List (Nested ν))

namespace Nested

mutual

/-- The profiles of a nested sum, from left to right. -/
def leaves : Nested ν → List (Profile ν)
  | .one p => [p]
  | .sum parts => leavesOf parts

/-- The profiles of the parts of a sum. -/
def leavesOf : List (Nested ν) → List (Profile ν)
  | [] => []
  | part :: parts => part.leaves ++ leavesOf parts

end

mutual

/-- What a nested sum gives, its parts being added up first. -/
def value : Nested ν → Except Fault (Profile ν)
  | .one p => .ok p
  | .sum parts => valuesOf parts >>= merge

/-- What the parts of a sum give. -/
def valuesOf : List (Nested ν) → Except Fault (List (Profile ν))
  | [] => .ok []
  | part :: parts => do
      let p ← part.value
      let rest ← valuesOf parts
      return p :: rest

end

end Nested

/-- Whether two sums fail for their rates, or both give profiles with a relation. -/
inductive SameOutcome (same : Profile ν → Profile ν → Prop) :
    Except Fault (Profile ν) → Except Fault (Profile ν) → Prop
  | sums {p q : Profile ν} (related : same p q) : SameOutcome same (.ok p) (.ok q)
  | rates (a b c d : String) : SameOutcome same (.error (.rates a b)) (.error (.rates c d))

/-- Whether a sum is that of profiles whose rates agree, or fails for their rates. -/
inductive Sums (profiles : List (Profile ν)) : Except Fault (Profile ν) → Prop
  | sum (agree : RatesAgree (rates profiles)) : Sums profiles (.ok (sumOf profiles))
  | rates (differ : ¬RatesAgree (rates profiles)) (a b : String) :
      Sums profiles (.error (.rates a b))

theorem sums_merge (profiles : List (Profile ν)) : Sums profiles (merge profiles) := by
  by_cases agree : RatesAgree (rates profiles)
  · rw [merge_of_agree agree]
    exact .sum agree
  · obtain ⟨a, b, failed⟩ := merge_of_differ agree
    rw [failed]
    exact .rates agree a b

namespace Nested

mutual

/-- A nested sum is the sum of its profiles. -/
theorem sums_value (s : Nested ν) : Sums s.leaves s.value := by
  cases s with
  | one p =>
      have agree : RatesAgree (rates [p]) := .singleton p.sampleRate
      have sum := Sums.sum agree
      rwa [sumOf_singleton] at sum
  | sum parts =>
      rw [leaves, value]
      rcases sums_valuesOf parts with ⟨sums, made, same, rest⟩ | ⟨a, b, failed, differ⟩
      · rw [made]
        have whole := sums_merge sums
        show Sums (leavesOf parts) (merge sums)
        generalize merge sums = x at whole
        cases whole with
        | sum agree =>
            rw [same]
            exact .sum (rest.1 agree)
        | rates differ a b => exact .rates (mt rest.2 differ) a b
      · rw [failed]
        exact .rates differ a b

/-- The parts of a sum have sums that stand for their profiles, or one part fails. -/
theorem sums_valuesOf (parts : List (Nested ν)) :
    (∃ sums, valuesOf parts = .ok sums ∧ sumOf sums = sumOf (leavesOf parts) ∧
        (RatesAgree (rates sums) ↔ RatesAgree (rates (leavesOf parts)))) ∨
      ∃ a b, valuesOf parts = .error (.rates a b) ∧ ¬RatesAgree (rates (leavesOf parts)) := by
  cases parts with
  | nil => exact .inl ⟨[], rfl, rfl, .rfl⟩
  | cons part parts =>
      have first := sums_value part
      have rest := sums_valuesOf parts
      rw [valuesOf, leavesOf]
      generalize part.value = x at first
      cases first with
      | rates differ a b =>
          refine .inr ⟨a, b, rfl, fun agree => differ ?_⟩
          rw [rates_append, RatesAgree.append_iff] at agree
          exact agree.1
      | sum agree =>
          rcases rest with ⟨sums, made, same, rest⟩ | ⟨a, b, failed, differ⟩
          · refine .inl ⟨sumOf part.leaves :: sums, ?_, sumOf_cons_sumOf same,
              ratesAgree_cons_sumOf agree same rest⟩
            rw [made]
            rfl
          · refine .inr ⟨a, b, ?_, fun agree => differ ?_⟩
            · rw [failed]
              rfl
            · rw [rates_append, RatesAgree.append_iff] at agree
              exact agree.2.1

end

end Nested

omit [ToString ν] in
theorem Sums.sameOutcome_of_perm {x y : Except Fault (Profile ν)} (first : Sums profiles x)
    (second : Sums other y) (rearranged : profiles.Perm other) :
    SameOutcome (fun p q => p.Reordered q ∧ p.total = q.total) x y := by
  have rates := rearranged.map (·.sampleRate)
  cases first with
  | sum agree =>
      cases second with
      | sum _ =>
          have reordered := reordered_sumOf rearranged agree
          exact .sums ⟨reordered, reordered.total⟩
      | rates differ _ _ => exact absurd (agree.of_perm rates) differ
  | rates differ a b =>
      cases second with
      | sum agree => exact absurd (agree.of_perm rates.symm) differ
      | rates _ c d => exact .rates a b c d

omit [ToString ν] in
theorem Sums.sameOutcome {x y : Except Fault (Profile ν)} (first : Sums profiles x)
    (second : Sums profiles y) : SameOutcome Eq x y := by
  cases first with
  | sum agree =>
      cases second with
      | sum _ => exact .sums rfl
      | rates differ _ _ => exact absurd agree differ
  | rates differ a b =>
      cases second with
      | sum agree => exact absurd agree differ
      | rates _ c d => exact .rates a b c d

theorem add_empty (p : Profile ν) : p.add empty = .ok p := by
  have same : p.sumAt empty p.sampleRate = p := by
    apply ext <;> simp [sumAt, empty, Tally.merge_empty]
  rw [add_eq, commonRate_eq, if_pos (.inl rfl)]
  by_cases none : p.sampleRate = 0
  · rw [if_pos none]
    exact congrArg Except.ok ((congrArg (p.sumAt empty) none.symm).trans same)
  · rw [if_neg none]
    exact congrArg Except.ok same

theorem merge_append_empty (front back : List (Profile ν)) :
    merge (front ++ empty :: back) = merge (front ++ back) := by
  rw [merge, merge, List.foldlM_append, List.foldlM_append]
  congr 1
  funext sum
  rw [List.foldlM_cons, add_empty]
  rfl

theorem merge_singleton (p : Profile ν) : merge [p] = .ok p := by
  have agree : RatesAgree (rates [p]) := .singleton p.sampleRate
  rw [merge_of_agree agree, sumOf_singleton]

/-- Profiles are a monoid, as far as their rates agree: however a sum is nested it is the sum of
    its profiles, the empty profile adds nothing, the order matters only for the order of keys
    and lists, and a sum fails exactly when two rates that count differ. -/
theorem merge_monoid (profiles : List (Profile ν)) :
    (∀ s : Nested ν, s.leaves = profiles → SameOutcome Eq s.value (merge profiles)) ∧
    (∀ s t : Nested ν, s.leaves = t.leaves → SameOutcome Eq s.value t.value) ∧
    (∀ p : Profile ν, merge [empty, p] = .ok p ∧ merge [p, empty] = .ok p) ∧
    (∀ front back, profiles = front ++ back →
      merge (front ++ empty :: back) = merge profiles) ∧
    (∀ other, profiles.Perm other →
      SameOutcome (fun p q => p.Reordered q ∧ p.total = q.total) (merge profiles) (merge other)) ∧
    ((∃ fault, merge profiles = .error fault) ↔
      ∃ p ∈ profiles, ∃ q ∈ profiles,
        p.sampleRate ≠ 0 ∧ q.sampleRate ≠ 0 ∧ p.sampleRate ≠ q.sampleRate) := by
  refine ⟨?_, ?_, ?_, ?_, ?_, ?_⟩
  · rintro s rfl
    exact s.sums_value.sameOutcome (sums_merge s.leaves)
  · intro s t same
    have second := t.sums_value
    rw [← same] at second
    exact s.sums_value.sameOutcome second
  · intro p
    exact ⟨(merge_append_empty [] [p]).trans (merge_singleton p),
      (merge_append_empty [p] []).trans (merge_singleton p)⟩
  · rintro front back rfl
    exact merge_append_empty front back
  · intro other rearranged
    exact (sums_merge profiles).sameOutcome_of_perm (sums_merge other) rearranged
  · have fails : (∃ fault, merge profiles = .error fault) ↔ ¬RatesAgree (rates profiles) := by
      constructor
      · rintro ⟨fault, failed⟩ agree
        exact ne_error_of_ok (merge_of_agree agree) failed
      · intro differ
        obtain ⟨a, b, failed⟩ := merge_of_differ differ
        exact ⟨_, failed⟩
    rw [fails, ratesAgree_iff]
    push Not
    rfl

end Profile

end CallProfile
