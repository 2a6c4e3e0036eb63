/-
This file says what the evaluation of a condition gives. The main statement is that a condition of
the grammar has the value of its formula, or fails with its first name without a value.
-/

import Phrasebook.Proofs.Preview.Grammar

namespace Phrasebook.Condition

open Text Expression Outcome

def Operand.names : Operand → List String
  | parameter name => [name]
  | literal _ => []

def Comparison.names (comparison : Comparison) : List String :=
  comparison.left.names ++ comparison.right.names

/-- The names in a formula, from left to right. -/
def names (formula : Formula) : List String :=
  formula.flatten.flatMap Comparison.names

def Operand.text (values : String → String) : Operand → String
  | parameter name => values name
  | literal text => text

def Comparison.agrees (values : String → String) (comparison : Comparison) : Bool :=
  (comparison.left.text values == comparison.right.text values) == comparison.equal

/-- One alternative holds, which is so where all its comparisons hold. -/
def truth (values : String → String) (formula : Formula) : Bool :=
  formula.any fun clause => clause.all fun comparison => comparison.agrees values

/-- The first name without a value. -/
def unbound? (arguments : Arguments) (names : List String) : Option String :=
  names.find? fun name => (arguments name).isNone

/-- The fault of names of which one has no value. -/
def Lacks (arguments : Arguments) (names : List String) (fault : PreviewFault) : Prop :=
  ∃ name, unbound? arguments names = some name ∧ fault = .missingArgument name

section

variable {arguments : Arguments} {fault : PreviewFault}

theorem not_lacks_nil : ¬Lacks arguments [] fault := by
  rintro ⟨name, never, _⟩
  cases never

theorem lacks_append {first second : List String} :
    Lacks arguments (first ++ second) fault ↔
      Lacks arguments first fault ∨
        (∀ other, ¬Lacks arguments first other) ∧ Lacks arguments second fault := by
  simp only [Lacks, unbound?, List.find?_append]
  cases first.find? fun name => (arguments name).isNone <;> simp

theorem Operand.value_eq_error_iff {operand : Operand} :
    operand.value arguments = .error fault ↔ Lacks arguments operand.names fault := by
  cases operand with
  | literal text => simp [value, names, Lacks, unbound?]
  | parameter name =>
      cases isValue : arguments name with
      | some found => simp [value, names, Lacks, unbound?, isValue]
      | none => simp [value, names, Lacks, unbound?, isValue, eq_comm]

theorem Comparison.holds_eq_error_iff {comparison : Comparison} :
    comparison.holds arguments = .error fault ↔ Lacks arguments comparison.names fault := by
  rw [holds, bind_eq_error_iff, names, lacks_append, Operand.value_eq_error_iff]
  simp only [bind_pure_eq_error_iff, Operand.value_eq_error_iff, exists_and_right,
    exists_eq_ok_iff, ne_eq]

/-- What is wrong with the text of a comparison in a condition. -/
inductive Faulty (condition : String) (arguments : Arguments) (text : List Char) :
    PreviewFault → Prop
  | unreadable (unknown : ∀ comparison, ¬Compares text comparison) :
      Faulty condition arguments text (.unsupportedCondition condition)
  | lacking {comparison : Comparison} {fault : PreviewFault} (compares : Compares text comparison)
      (lacks : Lacks arguments comparison.names fault) : Faulty condition arguments text fault

theorem faulty_iff {condition : String} {text : List Char} {comparison : Comparison}
    (compares : Compares text comparison) :
    Faulty condition arguments text fault ↔ Lacks arguments comparison.names fault := by
  constructor
  · intro faulty
    cases faulty with
    | unreadable unknown => exact absurd compares (unknown comparison)
    | lacking isComparison lacks =>
        rw [compares.unique isComparison]
        exact lacks
  · exact .lacking compares

theorem comparison_eq_error_iff {condition : String} {text : List Char} :
    (match comparison? text with
      | some comparison => comparison.holds arguments
      | none => .error (.unsupportedCondition condition)) = .error fault ↔
    Faulty condition arguments text fault := by
  cases isComparison : comparison? text with
  | some comparison =>
      rw [faulty_iff (comparison_eq_some_iff.mp isComparison)]
      exact Comparison.holds_eq_error_iff
  | none =>
      have unknown : ∀ comparison, ¬Compares text comparison := by
        intro comparison compares
        rw [← comparison_eq_some_iff, isComparison] at compares
        cases compares
      constructor
      · rintro ⟨⟩
        exact .unreadable unknown
      · intro faulty
        cases faulty with
        | unreadable => rfl
        | lacking compares => exact absurd compares (unknown _)

/-- The evaluation fails with the first fault of the comparisons, from left to right. -/
theorem evaluate_eq_error_iff {condition : String} :
    evaluate condition arguments = .error fault ↔
      FirstFault (fun _ text => Faulty condition arguments text) (pieces condition.toList)
        fault := by
  -- alternatives are read one after the other, so the first fault is that of the flat list
  rw [pieces, firstFault_flatten_iff, evaluate, bind_pure_eq_error_iff, mapM_eq_error_iff]
  apply firstFault_congr
  intro alternative fault
  rw [bind_pure_eq_error_iff, mapM_eq_error_iff]
  exact firstFault_congr fun _ _ => comparison_eq_error_iff

/-- Where comparisons can be read, only names without values are faults. -/
theorem firstFault_iff_of_compares {condition : String} {texts : List (List Char)}
    {comparisons : List Comparison} (compares : List.Forall₂ Compares texts comparisons) :
    FirstFault (fun _ text => Faulty condition arguments text) texts fault ↔
      Lacks arguments (comparisons.flatMap Comparison.names) fault := by
  induction compares generalizing fault with
  | nil => exact iff_of_false not_firstFault_nil not_lacks_nil
  | cons first _ inductionHypothesis =>
      rw [firstFault_cons, List.flatMap_cons, lacks_append, inductionHypothesis]
      simp only [faulty_iff first]

theorem operandValue_of_bound {values : String → String} {operand : Operand}
    (bound : ∀ name ∈ operand.names, arguments name = some (values name)) :
    operandValue? arguments operand = some (operand.text values) := by
  cases operand with
  | parameter name => exact bound name List.mem_cons_self
  | literal text => rfl

theorem comparisonValue_of_bound {values : String → String} {comparison : Comparison}
    (bound : ∀ name ∈ comparison.names, arguments name = some (values name)) :
    comparisonValue? arguments comparison = some (comparison.agrees values) := by
  obtain ⟨boundLeft, boundRight⟩ := List.forall_mem_append.mp bound
  rw [comparisonValue?, operandValue_of_bound boundLeft, operandValue_of_bound boundRight,
    Comparison.agrees]
  cases comparison.equal <;> simp [bne]

/-- Where all its names have values, a formula has its truth for a value. -/
theorem value_of_bound {values : String → String} {formula : Formula}
    (bound : ∀ name ∈ names formula, arguments name = some (values name)) :
    value? arguments formula = some (truth values formula) := by
  have comparisons : ∀ clause ∈ formula, ∀ comparison ∈ clause,
      comparisonValue? arguments comparison = some (comparison.agrees values) := by
    intro clause isClause comparison isComparison
    apply comparisonValue_of_bound
    intro name isName
    have member : comparison ∈ formula.flatten :=
      List.mem_flatten.mpr ⟨clause, isClause, isComparison⟩
    exact bound name (List.mem_flatMap.mpr ⟨comparison, member, isName⟩)
  have clauses : ∀ clause ∈ formula, clauseValue? arguments clause =
      some (clause.all fun comparison => comparison.agrees values) := by
    intro clause isClause
    rw [clauseValue?, mapM_eq_some_map (comparisons clause isClause)]
    simp
  rw [value?, mapM_eq_some_map clauses, truth]
  simp

/-- A condition of the grammar has the truth of its formula where all names have values, and fails
with the first name that has none. Literals do not matter to its structure, for a condition has
one formula. -/
theorem evaluate_writes {condition : String} {formula : Formula}
    (writes : Writes condition.toList formula) (arguments : Arguments) :
    (∀ values : String → String,
      (∀ name ∈ names formula, arguments name = some (values name)) →
        evaluate condition arguments = .ok (truth values formula)) ∧
    (∀ name, unbound? arguments (names formula) = some name →
      evaluate condition arguments = .error (.missingArgument name)) ∧
    ∀ other, Writes condition.toList other → other = formula := by
  refine ⟨?_, ?_, ?_⟩
  · intro values bound
    exact evaluate_eq_ok_iff.mpr ⟨formula, reads_iff_writes.mpr writes, value_of_bound bound⟩
  · intro name isUnbound
    rw [evaluate_eq_error_iff, firstFault_iff_of_compares writes.pieces]
    exact ⟨name, isUnbound, rfl⟩
  · intro other isOther
    exact isOther.unique writes

/-- A condition with blanks of two kinds, whose literals hold operators and escapes. -/
def quotedCondition : String :=
  "a == \"||\" &&\t\"\\\"&& \\t\\n\\é\" != b || b == a"

theorem evaluate_writes_quoted :
    Writes quotedCondition.toList
        [[⟨.parameter "a", true, .literal "||"⟩, ⟨.literal "\"&& \t\né", false, .parameter "b"⟩],
          [⟨.parameter "b", true, .parameter "a"⟩]] ∧
      evaluate quotedCondition (fun _ => some "||") = .ok true ∧
      evaluate quotedCondition (fun name => if name = "a" then some "||" else none) =
        .error (.missingArgument "b") := by
  have writes : Writes quotedCondition.toList
      [[⟨.parameter "a", true, .literal "||"⟩, ⟨.literal "\"&& \t\né", false, .parameter "b"⟩],
        [⟨.parameter "b", true, .parameter "a"⟩]] := by
    decide +kernel
  obtain ⟨isTrue, _, _⟩ := evaluate_writes writes fun _ => some "||"
  obtain ⟨_, lacks, _⟩ :=
    evaluate_writes writes fun name => if name = "a" then some "||" else none
  exact ⟨writes, isTrue (fun _ => "||") (fun _ _ => rfl), lacks "b" (by decide)⟩

end

end Phrasebook.Condition
