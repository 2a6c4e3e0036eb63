/-
This file reads lists item by item. A reader moves between states, writes results on the way and
may refuse an item.
-/

namespace Phrasebook

variable {S A B : Type}

/-- The state after some items and what a reader with the given steps writes for them. -/
def scan (next : S → A → Option (S × List B)) : S → List A → Option (S × List B)
  | state, [] => some (state, [])
  | state, item :: rest =>
      match next state item with
      | none => none
      | some (middle, written) =>
          (scan next middle rest).map fun (after, more) => (after, written ++ more)

section

variable {next : S → A → Option (S × List B)} {before middle after : S} {written more : List B}

theorem scan_cons_eq_some_iff {item : A} {rest : List A} {results : List B} :
    scan next before (item :: rest) = some (after, results) ↔
      ∃ middle written more, next before item = some (middle, written) ∧
        scan next middle rest = some (after, more) ∧ results = written ++ more := by
  rw [scan]
  cases next before item with
  | none => simp
  | some stepped =>
      simp only [Option.map_eq_some_iff, Option.some.injEq, Prod.exists, Prod.mk.injEq]
      constructor
      · intro scanned
        obtain ⟨_, more, isRest, rfl, rfl⟩ := scanned
        exact ⟨_, _, more, rfl, isRest, rfl⟩
      · intro steps
        obtain ⟨_, _, more, rfl, isRest, rfl⟩ := steps
        exact ⟨_, more, isRest, rfl, rfl⟩

theorem scan_cons {item : A} {rest : List A} (isNext : next before item = some (middle, written))
    (isRest : scan next middle rest = some (after, more)) :
    scan next before (item :: rest) = some (after, written ++ more) :=
  scan_cons_eq_some_iff.mpr ⟨middle, written, more, isNext, isRest, rfl⟩

theorem scan_singleton {item : A} (isNext : next before item = some (after, written)) :
    scan next before [item] = some (after, written) := by
  have scanned : scan next before [item] = some (after, written ++ []) := scan_cons isNext rfl
  rw [List.append_nil] at scanned
  exact scanned

theorem scan_append {first second : List A}
    (isFirst : scan next before first = some (middle, written))
    (isSecond : scan next middle second = some (after, more)) :
    scan next before (first ++ second) = some (after, written ++ more) := by
  induction first generalizing before written with
  | nil =>
      cases isFirst
      exact isSecond
  | cons item rest inductionHypothesis =>
      obtain ⟨reached, start, further, isNext, isRest, rfl⟩ := scan_cons_eq_some_iff.mp isFirst
      rw [List.cons_append, List.append_assoc]
      exact scan_cons isNext (inductionHypothesis isRest)

theorem scan_append_eq_some_iff {first second : List A} {results : List B} :
    scan next before (first ++ second) = some (after, results) ↔
      ∃ middle written more, scan next before first = some (middle, written) ∧
        scan next middle second = some (after, more) ∧ results = written ++ more := by
  constructor
  · intro scanned
    induction first generalizing before results with
    | nil => exact ⟨before, [], results, rfl, scanned, rfl⟩
    | cons item rest inductionHypothesis =>
        rw [List.cons_append] at scanned
        obtain ⟨reached, start, further, isNext, isRest, rfl⟩ := scan_cons_eq_some_iff.mp scanned
        obtain ⟨middle, written, more, isFirst, isSecond, rfl⟩ := inductionHypothesis isRest
        exact ⟨middle, start ++ written, more, scan_cons isNext isFirst, isSecond,
          (List.append_assoc _ _ _).symm⟩
  · intro parts
    obtain ⟨middle, written, more, isFirst, isSecond, rfl⟩ := parts
    exact scan_append isFirst isSecond

/-- A reader that keeps items without writing anything has them in reverse order in the end. -/
theorem scan_gather {inside : List A → S} {kept : A → Bool}
    (each : ∀ item reversed, kept item → next (inside reversed) item =
      some (inside (item :: reversed), []))
    {items : List A} (all : items.all kept) (reversed : List A) :
    scan next (inside reversed) items = some (inside (items.reverse ++ reversed), []) := by
  induction items generalizing reversed with
  | nil => rfl
  | cons item rest inductionHypothesis =>
      rw [List.all_cons, Bool.and_eq_true] at all
      rw [List.reverse_cons, List.append_assoc]
      exact scan_cons (each item reversed all.1) (inductionHypothesis all.2 (item :: reversed))

/-- Items that are spelled one by one are read one by one. -/
theorem scan_flatMap {C : Type} {spell : C → List A} {result : C → List B} {items : List C}
    (each : ∀ item ∈ items, scan next before (spell item) = some (before, result item)) :
    scan next before (items.flatMap spell) = some (before, items.flatMap result) := by
  induction items with
  | nil => rfl
  | cons item rest inductionHypothesis =>
      obtain ⟨first, further⟩ := List.forall_mem_cons.mp each
      rw [List.flatMap_cons, List.flatMap_cons]
      exact scan_append first (inductionHypothesis further)

end

end Phrasebook
