/-
This file holds laws of programs that may fail, and of lists whose first faulty item decides.
-/

import Mathlib.Data.List.Forall2

namespace Phrasebook.Outcome

variable {Fault A B : Type}

/-- Two steps succeed exactly where the first does and the second does on its value. -/
theorem bind_eq_ok_iff {first : Except Fault A} {next : A → Except Fault B} {result : B} :
    first >>= next = .ok result ↔ ∃ value, first = .ok value ∧ next value = .ok result := by
  cases first with
  | error fault =>
      constructor
      · intro failed
        cases failed
      · intro succeeded
        obtain ⟨value, never, _⟩ := succeeded
        cases never
  | ok value =>
      constructor
      · intro succeeded
        exact ⟨value, rfl, succeeded⟩
      · intro both
        obtain ⟨_, same, succeeded⟩ := both
        cases same
        exact succeeded

/-- A list is read exactly where each of its items is. -/
theorem mapM_eq_ok_iff {read : A → Except Fault B} {items : List A} {results : List B} :
    items.mapM read = .ok results ↔
      List.Forall₂ (fun item result => read item = .ok result) items results := by
  induction items generalizing results with
  | nil =>
      rw [List.mapM_nil, List.forall₂_nil_left_iff]
      constructor
      · intro same
        cases same
        rfl
      · intro same
        rw [same]
        rfl
  | cons item rest inductionHypothesis =>
      rw [List.mapM_cons, List.forall₂_cons_left_iff, bind_eq_ok_iff]
      constructor
      · intro readAll
        obtain ⟨result, readItem, succeeded⟩ := readAll
        obtain ⟨further, readRest, same⟩ := bind_eq_ok_iff.mp succeeded
        cases same
        exact ⟨result, further, readItem, inductionHypothesis.mp readRest, rfl⟩
      · intro each
        obtain ⟨result, further, readItem, readRest, same⟩ := each
        subst same
        have readFurther := inductionHypothesis.mpr readRest
        exact ⟨result, readItem, bind_eq_ok_iff.mpr ⟨further, readFurther, rfl⟩⟩

theorem bind_eq_error_iff {first : Except Fault A} {next : A → Except Fault B} {fault : Fault} :
    first >>= next = .error fault ↔
      first = .error fault ∨ ∃ value, first = .ok value ∧ next value = .error fault := by
  cases first with
  | error found =>
      constructor
      · intro failed
        cases failed
        exact .inl rfl
      · intro failed
        rcases failed with same | ⟨_, never, _⟩
        · cases same
          rfl
        · cases never
  | ok value =>
      constructor
      · intro failed
        exact .inr ⟨value, rfl, failed⟩
      · intro failed
        rcases failed with never | ⟨_, same, further⟩
        · cases never
        · cases same
          exact further

/-- A last step that cannot fail adds no faults. -/
theorem bind_pure_eq_error_iff {first : Except Fault A} {change : A → B} {fault : Fault} :
    (first >>= fun value => pure (change value)) = .error fault ↔ first = .error fault := by
  rw [bind_eq_error_iff]
  apply or_iff_left
  rintro ⟨_, _, never⟩
  cases never

/-- A fault of a list is a fault of one of its items. -/
theorem exists_of_mapM_eq_error {read : A → Except Fault B} {items : List A} {fault : Fault}
    (failed : items.mapM read = .error fault) : ∃ item ∈ items, read item = .error fault := by
  induction items with
  | nil => cases failed
  | cons item rest inductionHypothesis =>
      rw [List.mapM_cons] at failed
      obtain first | ⟨result, _, further⟩ := bind_eq_error_iff.mp failed
      · exact ⟨item, List.mem_cons_self, first⟩
      · obtain later | ⟨results, _, never⟩ := bind_eq_error_iff.mp further
        · obtain ⟨other, member, isFault⟩ := inductionHypothesis later
          exact ⟨other, List.mem_cons_of_mem item member, isFault⟩
        · cases never

theorem exists_eq_ok_iff {program : Except Fault A} :
    (∃ value, program = .ok value) ↔ ∀ fault, program ≠ .error fault := by
  cases program <;> simp

/-- A list has values exactly where each of its items has one. -/
theorem mapM_eq_some_iff {read : A → Option B} {items : List A} {results : List B} :
    items.mapM read = some results ↔
      List.Forall₂ (fun item result => read item = some result) items results := by
  induction items generalizing results with
  | nil =>
      rw [List.mapM_nil, List.forall₂_nil_left_iff]
      exact Option.some_inj.trans eq_comm
  | cons item rest inductionHypothesis =>
      simp only [List.mapM_cons, List.forall₂_cons_left_iff, Option.bind_eq_bind,
        Option.bind_eq_some_iff, inductionHypothesis]
      constructor
      · intro readAll
        obtain ⟨result, readItem, further, readRest, same⟩ := readAll
        exact ⟨result, further, readItem, readRest, (Option.some.inj same).symm⟩
      · intro each
        obtain ⟨result, further, readItem, readRest, same⟩ := each
        exact ⟨result, readItem, further, readRest, congrArg some same.symm⟩

theorem mapM_eq_some_map {read : A → Option B} {change : A → B} {items : List A}
    (each : ∀ item ∈ items, read item = some (change item)) :
    items.mapM read = some (items.map change) := by
  rw [mapM_eq_some_iff, List.forall₂_map_right_iff, List.forall₂_same]
  exact each

/-- No item has a fault. What is wrong with an item may depend on the items before it. -/
def Faultless (faulty : List A → A → Fault → Prop) (items : List A) : Prop :=
  ∀ before item after, items = before ++ item :: after → ∀ fault, ¬faulty before item fault

/-- The fault of the first item that has one. -/
def FirstFault (faulty : List A → A → Fault → Prop) (items : List A) (fault : Fault) : Prop :=
  ∃ before item after, items = before ++ item :: after ∧ Faultless faulty before ∧
    faulty before item fault

section

variable {faulty : List A → A → Fault → Prop} {item : A} {rest : List A} {fault : Fault}

theorem faultless_nil : Faultless faulty [] := by
  intro before item after split
  simp at split

theorem not_firstFault_nil : ¬FirstFault faulty [] fault := by
  intro first
  obtain ⟨before, item, after, split, _⟩ := first
  simp at split

/-- The later items are judged with the first one before them. -/
theorem faultless_cons :
    Faultless faulty (item :: rest) ↔ (∀ fault, ¬faulty [] item fault) ∧
      Faultless (fun before => faulty (item :: before)) rest := by
  constructor
  · intro faultless
    refine ⟨faultless [] item rest rfl, ?_⟩
    intro before other after split
    exact faultless (item :: before) other after (congrArg (item :: ·) split)
  · intro both before other after split
    obtain ⟨first, further⟩ := both
    obtain ⟨rfl, same⟩ | ⟨earlier, rfl, same⟩ := List.cons_eq_append_iff.mp split
    · cases same
      exact first
    · exact further earlier other after same

theorem firstFault_cons :
    FirstFault faulty (item :: rest) fault ↔ faulty [] item fault ∨
      (∀ other, ¬faulty [] item other) ∧
        FirstFault (fun before => faulty (item :: before)) rest fault := by
  constructor
  · intro first
    obtain ⟨before, other, after, split, faultless, isFault⟩ := first
    obtain ⟨rfl, same⟩ | ⟨earlier, rfl, same⟩ := List.cons_eq_append_iff.mp split
    · cases same
      exact .inl isFault
    · obtain ⟨sound, further⟩ := faultless_cons.mp faultless
      exact .inr ⟨sound, earlier, other, after, same, further, isFault⟩
  · intro either
    obtain here | ⟨sound, before, other, after, split, faultless, isFault⟩ := either
    · exact ⟨[], item, rest, rfl, faultless_nil, here⟩
    · refine ⟨item :: before, other, after, congrArg (item :: ·) split, ?_, isFault⟩
      exact faultless_cons.mpr ⟨sound, faultless⟩

end

/-- Where some item is faulty, one is the first. -/
theorem faultless_iff {faulty : List A → A → Fault → Prop} {items : List A} :
    Faultless faulty items ↔ ∀ fault, ¬FirstFault faulty items fault := by
  induction items generalizing faulty with
  | nil => exact iff_of_true faultless_nil fun _ => not_firstFault_nil
  | cons item rest inductionHypothesis =>
      simp only [faultless_cons, firstFault_cons, inductionHypothesis, not_or, not_and,
        forall_and]
      constructor
      · intro both
        exact ⟨both.1, fun fault _ => both.2 fault⟩
      · intro both
        exact ⟨both.1, fun fault => both.2 fault both.1⟩

theorem firstFault_congr {first second : A → Fault → Prop}
    (same : ∀ item fault, first item fault ↔ second item fault) {items : List A} {fault : Fault} :
    FirstFault (fun _ item => first item) items fault ↔
      FirstFault (fun _ item => second item) items fault := by
  have isSame : first = second := funext fun item => funext fun fault => propext (same item fault)
  rw [isSame]

theorem firstFault_append {faulty : List A → A → Fault → Prop} {first second : List A}
    {fault : Fault} :
    FirstFault faulty (first ++ second) fault ↔ FirstFault faulty first fault ∨
      Faultless faulty first ∧
        FirstFault (fun before => faulty (first ++ before)) second fault := by
  induction first generalizing faulty with
  | nil => simp only [List.nil_append, not_firstFault_nil, faultless_nil, true_and, false_or]
  | cons item rest inductionHypothesis =>
      simp only [List.cons_append, firstFault_cons, faultless_cons, inductionHypothesis,
        and_or_left, and_assoc, or_assoc]

section

variable {faulty : List A → A → Fault → Prop} {other : List A → A → B → Prop}
  {change : B → Fault} {items : List A}

theorem faultless_map_iff
    (agree : ∀ before item after, items = before ++ item :: after → ∀ fault,
      faulty before item fault ↔ ∃ found, other before item found ∧ fault = change found) :
    Faultless faulty items ↔ Faultless other items := by
  constructor
  · intro faultless before item after split found isOther
    exact faultless before item after split _
      ((agree before item after split _).mpr ⟨found, isOther, rfl⟩)
  · intro faultless before item after split fault isFault
    obtain ⟨found, isOther, _⟩ := (agree before item after split fault).mp isFault
    exact faultless before item after split found isOther

/-- Faults that are others under another name are first where the others are. -/
theorem firstFault_map_iff {fault : Fault}
    (agree : ∀ before item after, items = before ++ item :: after → ∀ fault,
      faulty before item fault ↔ ∃ found, other before item found ∧ fault = change found) :
    FirstFault faulty items fault ↔
      ∃ found, FirstFault other items found ∧ fault = change found := by
  have earlier {before : List A} {item : A} {after : List A}
      (split : items = before ++ item :: after) :
      Faultless faulty before ↔ Faultless other before := by
    apply faultless_map_iff
    intro first middle last splitBefore
    exact agree first middle (last ++ item :: after) (by simp [split, splitBefore])
  constructor
  · intro isFirst
    obtain ⟨before, item, after, split, faultless, isFault⟩ := isFirst
    obtain ⟨found, isOther, same⟩ := (agree before item after split fault).mp isFault
    exact ⟨found, ⟨before, item, after, split, (earlier split).mp faultless, isOther⟩, same⟩
  · intro found
    obtain ⟨found, ⟨before, item, after, split, faultless, isOther⟩, same⟩ := found
    exact ⟨before, item, after, split, (earlier split).mpr faultless,
      (agree before item after split fault).mpr ⟨found, isOther, same⟩⟩

end

/-- The first fault of lists that follow each other is the first fault in the first faulty list. -/
theorem firstFault_flatten_iff {faulty : A → Fault → Prop} {lists : List (List A)}
    {fault : Fault} :
    FirstFault (fun _ item => faulty item) lists.flatten fault ↔
      FirstFault (fun _ items => FirstFault (fun _ item => faulty item) items) lists fault := by
  induction lists with
  | nil => exact iff_of_false not_firstFault_nil not_firstFault_nil
  | cons items rest inductionHypothesis =>
      rw [List.flatten_cons, firstFault_append, firstFault_cons, faultless_iff, inductionHypothesis]

/-- Reading a list fails exactly with the fault of the first item that cannot be read. -/
theorem mapM_eq_error_iff {read : A → Except Fault B} {items : List A} {fault : Fault} :
    items.mapM read = .error fault ↔
      FirstFault (fun _ item fault => read item = .error fault) items fault := by
  induction items with
  | nil =>
      apply iff_of_false _ not_firstFault_nil
      intro failed
      cases failed
  | cons item rest inductionHypothesis =>
      rw [List.mapM_cons, bind_eq_error_iff, firstFault_cons, ← exists_eq_ok_iff,
        ← inductionHypothesis, ← exists_and_right]
      apply or_congr_right
      apply exists_congr
      intro value
      apply and_congr_right
      intro _
      rw [bind_eq_error_iff]
      constructor
      · intro failed
        obtain further | ⟨values, _, never⟩ := failed
        · exact further
        · cases never
      · exact .inl

end Phrasebook.Outcome
