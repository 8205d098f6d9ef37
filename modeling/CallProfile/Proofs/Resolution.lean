import CallProfile.Proofs.Calls

/-! # Recorded arcs between symbols

A recorded arc with a symbol at both of its ends is an arc between these; any other is left out,
with a diagnostic for each end without one. So the calls of a recording are those between symbols
and those that are left out, and a recording that is taken in parts gives the arcs of the parts
together.
-/

namespace CallProfile

open scoped Whole

namespace RawArc

/-- A recorded arc with the symbols at its ends. -/
def locate (table : SymbolTable) (a : RawArc) : LocatedArc where
  raw := a
  caller := table.resolve a.source
  callee := table.resolve a.target

/-- The symbols at both ends of a recorded arc. -/
def endsIn (table : SymbolTable) (a : RawArc) : Option (Symbol × Symbol) := do
  return (← table.resolve a.source, ← table.resolve a.target)

/-- What there is to tell of the ends of a recorded arc without a symbol, the caller first. -/
def endDiagnostics (a : RawArc) : List Diagnostic :=
  [ { address := a.source, kind := "arc", count := a.count
      detail := s!"caller of 0x{Text.hexText a.target}" },
    { address := a.target, kind := "arc", count := a.count
      detail := s!"callee of 0x{Text.hexText a.source}" } ]

variable {table : SymbolTable} {a : RawArc}

theorem endsIn_eq_some_iff {u v : Symbol} :
    a.endsIn table = some (u, v) ↔
      table.resolve a.source = some u ∧ table.resolve a.target = some v := by
  rw [endsIn]
  cases table.resolve a.source <;> cases table.resolve a.target <;> simp

theorem endsIn_eq_none_iff :
    a.endsIn table = none ↔ table.resolve a.source = none ∨ table.resolve a.target = none := by
  rw [endsIn]
  cases table.resolve a.source <;> cases table.resolve a.target <;> simp

theorem arc?_locate (table : SymbolTable) (a : RawArc) :
    (a.locate table).arc? = (a.endsIn table).map fun ends => ⟨ends.1, ends.2, a.count⟩ := by
  rw [LocatedArc.arc?, locate, endsIn]
  cases table.resolve a.source <;> cases table.resolve a.target <;> rfl

theorem diagnostics_locate (table : SymbolTable) (a : RawArc) :
    (a.locate table).diagnostics =
      a.endDiagnostics.filter fun d => table.resolve d.address = none := by
  have caller : toString "caller" ++ toString " of 0x" = toString "caller of 0x" := by decide
  have callee : toString "callee" ++ toString " of 0x" = toString "callee of 0x" := by decide
  rw [LocatedArc.diagnostics, locate, endDiagnostics]
  cases source : table.resolve a.source <;> cases target : table.resolve a.target <;>
    simp [source, target, caller, callee]

end RawArc

variable {table : SymbolTable}

/-- The arcs between symbols among recorded ones. -/
def arcsIn (table : SymbolTable) (arcs : List RawArc) : List Arc :=
  arcs.filterMap fun a => (a.locate table).arc?

theorem resolveArcs_eq (arcs : List RawArc) (table : SymbolTable) :
    resolveArcs arcs table =
      (Arc.merge (arcsIn table arcs), arcs.flatMap fun a => (a.locate table).diagnostics) := by
  rw [arcsIn, resolveArcs, List.filterMap_map, List.flatMap_map]
  rfl

/-- The calls between symbols that are chosen are those of the recorded arcs with such ends. -/
theorem amountOf_arcsIn (arcs : List RawArc) (p : Symbol × Symbol → Bool) :
    Tally.amountOf (Arc.merge (arcsIn table arcs)).entries p =
      ((arcs.filter fun a => (a.endsIn table).any p).map (·.count)).sum := by
  rw [Arc.amountOf_merge]
  induction arcs with
  | nil => rfl
  | cons a arcs ih =>
      rw [arcsIn, List.filterMap_cons, RawArc.arc?_locate, ← arcsIn]
      cases ends : a.endsIn table with
      | none => simpa [ends] using ih
      | some pair =>
          by_cases chosen : p pair = true
          · simpa [ends, chosen, Arc.ends] using ih
          · simpa [ends, chosen, Arc.ends] using ih

theorem ends_arcsIn (arcs : List RawArc) :
    (arcsIn table arcs).map (·.ends) = arcs.filterMap (·.endsIn table) := by
  rw [arcsIn, List.map_filterMap]
  congr 1
  funext a
  rw [RawArc.arc?_locate, Option.map_map]
  exact congrFun Option.map_id _

/-- Whether arcs between symbols and diagnostics tell of recorded arcs what there is to tell. -/
structure Resolves (table : SymbolTable) (arcs : List RawArc) (calls : ArcTally)
    (lost : List Diagnostic) : Prop where
  keys : calls.keys = (arcs.filterMap (·.endsIn table)).eraseDups
  counts : ∀ u v, calls.count (u, v) = ((arcs.filter fun a =>
    table.resolve a.source = some u ∧ table.resolve a.target = some v).map (·.count)).sum
  diagnostics : lost =
    (arcs.flatMap (·.endDiagnostics)).filter fun d => table.resolve d.address = none
  total : calls.total + ((arcs.filter fun a =>
      table.resolve a.source = none ∨ table.resolve a.target = none).map (·.count)).sum =
    (arcs.map (·.count)).sum

theorem resolves_resolveArcs (table : SymbolTable) (arcs : List RawArc) :
    Resolves table arcs (resolveArcs arcs table).1 (resolveArcs arcs table).2 := by
  rw [resolveArcs_eq]
  constructor
  · rw [Arc.merge, Tally.keys_ofList, List.map_map, ← ends_arcsIn]
    exact congrArg (fun beq => @List.eraseDups _ beq _) (lawful_beq_subsingleton _ _)
  · intro u v
    rw [Tally.count_eq_amountOf, amountOf_arcsIn]
    congr 2
    apply List.filter_congr
    intro a _
    rw [Bool.eq_iff_iff, decide_eq_true_iff, ← RawArc.endsIn_eq_some_iff]
    cases a.endsIn table <;> simp
  · simp only [RawArc.diagnostics_locate, List.filter_flatMap]
  · -- an arc either has symbols at both ends or is left out
    have divided := ((List.filter_append_perm (fun a => (a.endsIn table).any fun _ => true)
      arcs).map (·.count)).sum_eq
    rw [List.map_append, List.sum_append] at divided
    rw [Tally.total_eq_amountOf, amountOf_arcsIn, ← divided]
    congr 3
    apply List.filter_congr
    intro a _
    rw [Bool.eq_iff_iff, decide_eq_true_iff, ← RawArc.endsIn_eq_none_iff]
    cases a.endsIn table <;> simp

/-! ## Parts -/

theorem resolveArcs_append (first second : List RawArc) (table : SymbolTable) :
    resolveArcs (first ++ second) table =
      ((resolveArcs first table).1.merge (resolveArcs second table).1,
        (resolveArcs first table).2 ++ (resolveArcs second table).2) := by
  simp only [resolveArcs_eq, arcsIn, List.filterMap_append, List.flatMap_append,
    Arc.merge_append]

theorem resolveArcs_flatten (parts : List (List RawArc)) (table : SymbolTable) :
    resolveArcs parts.flatten table =
      (Arc.merge (parts.flatMap fun part => Arc.ofTally (resolveArcs part table).1),
        parts.flatMap fun part => (resolveArcs part table).2) := by
  induction parts with
  | nil => rfl
  | cons part parts ih =>
      rw [List.flatten_cons, resolveArcs_append, ih, List.flatMap_cons, List.flatMap_cons,
        Arc.merge_append, Arc.merge_ofTally]

/-- Recorded arcs are resolved without losing a call. Those with the same symbols at their ends are
    one, in the order of their first encounters, with all of their calls; each end without a symbol
    is told of in the order of the arcs; and the calls that are left out are those of the arcs with
    such an end. Arcs in parts give what the parts give, merged. -/
theorem resolveArcs_keeps_calls (table : SymbolTable) :
    (∀ arcs, Resolves table arcs (resolveArcs arcs table).1 (resolveArcs arcs table).2) ∧
    ∀ parts : List (List RawArc), resolveArcs parts.flatten table =
      (Arc.merge (parts.flatMap fun part => Arc.ofTally (resolveArcs part table).1),
        parts.flatMap fun part => (resolveArcs part table).2) :=
  ⟨resolves_resolveArcs table, fun parts => resolveArcs_flatten parts table⟩

end CallProfile
