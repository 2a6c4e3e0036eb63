/-
This file says how a condition is taken apart: where it is split, which texts are operands and
comparisons, and what the evaluation makes of them.
-/

import Mathlib.Data.List.Basic
import Phrasebook.Proofs.Lists
import Phrasebook.Proofs.Outcome
import Phrasebook.Proofs.Preview.Expression
import Phrasebook.Proofs.Text.Blank
import Phrasebook.Proofs.Text.Bracketed
import Phrasebook.Proofs.Text.Identifier

namespace Phrasebook.Condition

open Text Expression

theorem splitOutside_ne_nil (mark : Char) (state : LiteralState) (reversed text : List Char) :
    splitOutside mark state reversed text ≠ [] := by
  induction state, reversed, text using splitOutside.induct mark with
  | case1 => simp [splitOutside]
  | case2 => simp [splitOutside]
  | case3 state reversed first second rest isMark _ =>
      rw [splitOutside, if_pos isMark]
      exact List.cons_ne_nil _ _
  | case4 state reversed first second rest noMark inductionHypothesis =>
      rw [splitOutside, if_neg noMark]
      exact inductionHypothesis

/-- The parts between the marks make up the whole text. -/
theorem intercalate_splitOutside (mark : Char) (state : LiteralState) (reversed text : List Char) :
    [mark, mark].intercalate (splitOutside mark state reversed text) =
      reversed.reverse ++ text := by
  induction state, reversed, text using splitOutside.induct mark with
  | case1 => simp [splitOutside]
  | case2 => simp [splitOutside]
  | case3 state reversed first second rest isMark inductionHypothesis =>
      simp only [Bool.and_eq_true, beq_iff_eq] at isMark
      obtain ⟨⟨rfl, rfl⟩, rfl⟩ := isMark
      rw [splitOutside, if_pos (by simp)]
      obtain ⟨part, parts, isSplit⟩ := List.exists_cons_of_ne_nil
        (splitOutside_ne_nil second .outside [] rest)
      rw [isSplit] at inductionHypothesis ⊢
      rw [List.intercalate_cons_cons, inductionHypothesis]
      simp
  | case4 state reversed first second rest noMark inductionHypothesis =>
      rw [splitOutside, if_neg noMark, inductionHypothesis]
      simp

/-- A literal between its quotes, and the text that it is read as. Behind a backslash `n` is a line
feed and `t` a tab, and any other character but a line feed is itself. -/
inductive Unescapes : List Char → List Char → Prop
  | nil : Unescapes [] []
  | plain {character : Char} {inner text : List Char} (noQuote : character ≠ '"')
      (noBackslash : character ≠ '\\') (rest : Unescapes inner text) :
      Unescapes (character :: inner) (character :: text)
  | feed {inner text : List Char} (rest : Unescapes inner text) :
      Unescapes ('\\' :: 'n' :: inner) ('\n' :: text)
  | tab {inner text : List Char} (rest : Unescapes inner text) :
      Unescapes ('\\' :: 't' :: inner) ('\t' :: text)
  | itself {character : Char} {inner text : List Char} (noFeed : character ≠ '\n')
      (differs : character ≠ 'n' ∧ character ≠ 't') (rest : Unescapes inner text) :
      Unescapes ('\\' :: character :: inner) (character :: text)

theorem unescape_of_ne {character : Char} (differs : character ≠ 'n' ∧ character ≠ 't') :
    unescape character = character := by
  rw [unescape.eq_def]
  split
  · exact absurd rfl differs.1
  · exact absurd rfl differs.2
  · rfl

namespace Unescapes

theorem escape {character : Char} {inner text : List Char} (noFeed : character ≠ '\n')
    (rest : Unescapes inner text) :
    Unescapes ('\\' :: character :: inner) (unescape character :: text) := by
  by_cases isFeed : character = 'n'
  · subst isFeed
    exact feed rest
  by_cases isTab : character = 't'
  · subst isTab
    exact tab rest
  rw [unescape_of_ne ⟨isFeed, isTab⟩]
  exact itself noFeed ⟨isFeed, isTab⟩ rest

/-- Induction over the characters of a literal, with one case for all escapes. -/
@[elab_as_elim]
theorem byCharacter {motive : ∀ inner text, Unescapes inner text → Prop} (nil : motive [] [] .nil)
    (plain : ∀ {character : Char} {inner text : List Char} (noQuote : character ≠ '"')
      (noBackslash : character ≠ '\\') (rest : Unescapes inner text), motive inner text rest →
        motive (character :: inner) (character :: text) (.plain noQuote noBackslash rest))
    (escape : ∀ {character : Char} {inner text : List Char} (noFeed : character ≠ '\n')
      (rest : Unescapes inner text), motive inner text rest →
        motive ('\\' :: character :: inner) (unescape character :: text) (rest.escape noFeed))
    {inner text : List Char} (unescapes : Unescapes inner text) :
    motive inner text unescapes := by
  induction unescapes with
  | nil => exact nil
  | plain noQuote noBackslash rest inductionHypothesis =>
      exact plain noQuote noBackslash rest inductionHypothesis
  | feed rest inductionHypothesis => exact escape (by decide) rest inductionHypothesis
  | tab rest inductionHypothesis => exact escape (by decide) rest inductionHypothesis
  | @itself character inner text noFeed differs rest inductionHypothesis =>
      have each : ∀ other, unescape character = other →
          ∀ escaped : Unescapes ('\\' :: character :: inner) (other :: text),
            motive _ _ escaped := by
        rintro _ rfl _
        exact escape noFeed rest inductionHypothesis
      exact each character (unescape_of_ne differs) _

end Unescapes

theorem literal_eq_some {reversed text rest : List Char} {literal : String}
    (isLiteral : literal? reversed text = some (literal, rest)) :
    ∃ inner read, text = inner ++ '"' :: rest ∧ Unescapes inner read ∧
      literal.toList = reversed.reverse ++ read := by
  induction reversed, text using literal?.induct with
  | case1 => cases isLiteral
  | case2 reversed rest =>
      cases isLiteral
      exact ⟨[], [], rfl, .nil, by simp⟩
  | case3 reversed escaped rest isFeed =>
      rw [literal?, if_pos isFeed] at isLiteral
      cases isLiteral
  | case4 reversed escaped rest noFeed inductionHypothesis =>
      rw [literal?, if_neg noFeed] at isLiteral
      obtain ⟨inner, read, rfl, unescapes, isRead⟩ := inductionHypothesis isLiteral
      refine ⟨'\\' :: escaped :: inner, unescape escaped :: read, rfl, ?_, ?_⟩
      · exact unescapes.escape (by simpa using noFeed)
      · rw [isRead]
        simp
  | case5 reversed character rest noQuote alone isBackslash =>
      rw [literal?.eq_4 _ _ _ noQuote alone, if_pos isBackslash] at isLiteral
      cases isLiteral
  | case6 reversed character rest noQuote alone noBackslash inductionHypothesis =>
      rw [literal?.eq_4 _ _ _ noQuote alone, if_neg noBackslash] at isLiteral
      obtain ⟨inner, read, rfl, unescapes, isRead⟩ := inductionHypothesis isLiteral
      refine ⟨character :: inner, character :: read, rfl, ?_, ?_⟩
      · exact .plain noQuote (by simpa using noBackslash) unescapes
      · rw [isRead]
        simp

/-- The text of an operand without blanks. -/
inductive Spells : List Char → Operand → Prop
  | parameter {name : List Char} (named : FormsName name) :
      Spells name (.parameter (String.ofList name))
  | literal {inner read : List Char} (unescapes : Unescapes inner read) :
      Spells ('"' :: inner ++ ['"']) (.literal (String.ofList read))

/-- Inside a literal every text that is read whole leads back inside. -/
theorem Unescapes.foldl_next {inner read : List Char} (unescapes : Unescapes inner read) :
    inner.foldl LiteralState.next .inside = .inside := by
  induction unescapes using Unescapes.byCharacter with
  | nil => rfl
  | plain noQuote noBackslash _ inductionHypothesis =>
      rw [List.foldl_cons, LiteralState.next]
      simpa [noQuote, noBackslash] using inductionHypothesis
  | escape _ _ inductionHypothesis => exact inductionHypothesis

theorem Spells.foldl_next {text : List Char} {operand : Operand} (spells : Spells text operand) :
    text.foldl LiteralState.next .outside = .outside := by
  cases spells with
  | parameter named =>
      have all := all_continuesName_of_isName (isName_iff.mpr named)
      exact foldl_next_of_noQuote (not_mem_of_all (by decide) all)
  | literal unescapes =>
      rw [List.foldl_append]
      change ([_].foldl LiteralState.next (List.foldl LiteralState.next .inside _)) = _
      rw [unescapes.foldl_next]
      rfl

theorem operand_eq_some {text rest : List Char} {operand : Operand}
    (isOperand : operand? text = some (operand, rest)) :
    ∃ spelled, text = spelled ++ rest ∧ Spells spelled operand := by
  rw [operand?.eq_def] at isOperand
  split at isOperand
  · rename_i behind
    obtain ⟨⟨literal, after⟩, isLiteral, same⟩ := Option.map_eq_some_iff.mp isOperand
    cases same
    obtain ⟨inner, read, rfl, unescapes, isRead⟩ := literal_eq_some isLiteral
    refine ⟨'"' :: inner ++ ['"'], by simp, ?_⟩
    rw [List.reverse_nil, List.nil_append] at isRead
    rw [← String.ofList_toList (s := literal), isRead]
    exact .literal unescapes
  · dsimp only at isOperand
    split at isOperand
    · rename_i named
      cases isOperand
      exact ⟨text.takeWhile continuesName,
        (Lists.append_drop_takeWhile continuesName text).symm, .parameter (isName_iff.mp named)⟩
    · cases isOperand

theorem operator_eq_some {text rest : List Char} {equal : Bool}
    (isOperator : operator? text = some (equal, rest)) :
    text = (if equal then ['=', '='] else ['!', '=']) ++ rest := by
  rw [operator?.eq_def] at isOperator
  split at isOperator
  · cases isOperator
    rfl
  · cases isOperator
    rfl
  · cases isOperator

/-- An operand with blanks around it. -/
def Surrounds (text : List Char) (operand : Operand) : Prop :=
  ∃ before spelled after, text = before ++ spelled ++ after ∧ IsGap before ∧
    Spells spelled operand ∧ IsGap after

/-- A comparison is two operands with blanks around them and an operator between them. -/
theorem comparison_eq_some {text : List Char} {comparison : Comparison}
    (isComparison : comparison? text = some comparison) :
    ∃ left right, Surrounds left comparison.left ∧ Surrounds right comparison.right ∧
      text = left ++ (if comparison.equal then ['=', '='] else ['!', '=']) ++ right := by
  rw [comparison?] at isComparison
  obtain ⟨⟨left, afterLeft⟩, isLeft, isComparison⟩ := Option.bind_eq_some_iff.mp isComparison
  obtain ⟨⟨equal, afterOperator⟩, isOperator, isComparison⟩ :=
    Option.bind_eq_some_iff.mp isComparison
  obtain ⟨⟨right, rest⟩, isRight, isComparison⟩ := Option.bind_eq_some_iff.mp isComparison
  obtain ⟨isEnd, same⟩ := Option.ite_none_right_eq_some.mp isComparison
  cases same
  obtain ⟨first, isFirst, firstBlank⟩ := exists_trimStart text
  obtain ⟨spelledLeft, isSpelledLeft, spellsLeft⟩ := operand_eq_some isLeft
  obtain ⟨second, isSecond, secondBlank⟩ := exists_trimStart afterLeft
  obtain ⟨third, isThird, thirdBlank⟩ := exists_trimStart afterOperator
  obtain ⟨spelledRight, isSpelledRight, spellsRight⟩ := operand_eq_some isRight
  obtain ⟨last, isLast, lastBlank⟩ := exists_trimStart rest
  refine ⟨first ++ spelledLeft ++ second, third ++ spelledRight ++ last,
    ⟨first, spelledLeft, second, rfl, isGap_iff.mpr firstBlank, spellsLeft,
      isGap_iff.mpr secondBlank⟩,
    ⟨third, spelledRight, last, rfl, isGap_iff.mpr thirdBlank, spellsRight,
      isGap_iff.mpr lastBlank⟩, ?_⟩
  rw [List.isEmpty_iff.mp isEnd, List.append_nil] at isLast
  rw [← isLast, List.append_assoc third, ← isSpelledRight, ← isThird, List.append_assoc,
    ← operator_eq_some isOperator, List.append_assoc _ second, ← isSecond, List.append_assoc,
    ← isSpelledLeft, ← isFirst]

/-- The value of an operand, where it has one. -/
theorem Operand.value_eq_ok_iff {arguments : Arguments} {operand : Operand} {value : String} :
    operand.value arguments = .ok value ↔ operandValue? arguments operand = some value := by
  cases operand with
  | parameter name =>
      cases isValue : arguments name with
      | none => simp [Operand.value, operandValue?, isValue]
      | some found => simp [Operand.value, operandValue?, isValue]
  | literal text => simp [Operand.value, operandValue?]

theorem Comparison.holds_eq_ok_iff {arguments : Arguments} {comparison : Comparison}
    {flag : Bool} :
    comparison.holds arguments = .ok flag ↔ comparisonValue? arguments comparison = some flag := by
  have same (left right : String) : ((left == right) == comparison.equal) =
      if comparison.equal then left == right else left != right := by
    cases comparison.equal <;> simp [bne]
  simp only [Comparison.holds, comparisonValue?, Outcome.bind_eq_ok_iff, Option.bind_eq_bind,
    Option.bind_eq_some_iff, Operand.value_eq_ok_iff, same, pure, Except.pure, Except.ok.injEq,
    Option.some.injEq]

/-- The comparisons of a condition, as the evaluation reads them. -/
def Reads (condition : String) (formula : Formula) : Prop :=
  List.Forall₂ (List.Forall₂ fun text comparison => comparison? text = some comparison)
    (clauses condition) formula

/-- The evaluation of the text of a comparison in the given condition. -/
theorem comparison_eq_ok_iff {condition : String} {arguments : Arguments} {text : List Char}
    {flag : Bool} :
    (match comparison? text with
      | some comparison => comparison.holds arguments
      | none => .error (.unsupportedCondition condition)) = .ok flag ↔
    ∃ comparison, comparison? text = some comparison ∧
      comparisonValue? arguments comparison = some flag := by
  cases comparison? text with
  | none => simp
  | some comparison => simp [Comparison.holds_eq_ok_iff]

/-- The evaluation of an alternative of the given condition. -/
theorem clause_eq_ok_iff {condition : String} {arguments : Arguments}
    {alternative : List (List Char)} {flag : Bool} :
    (do
      let results ← alternative.mapM fun text =>
        match comparison? text with
        | some comparison => comparison.holds arguments
        | none => .error (.unsupportedCondition condition)
      return results.all id) = .ok flag ↔
    ∃ clause, List.Forall₂ (fun text comparison => comparison? text = some comparison)
      alternative clause ∧ clauseValue? arguments clause = some flag := by
  rw [Outcome.bind_eq_ok_iff]
  constructor
  · intro evaluated
    obtain ⟨results, isResults, same⟩ := evaluated
    cases same
    have each := (Outcome.mapM_eq_ok_iff.mp isResults).imp
      fun _ _ holds => comparison_eq_ok_iff.mp holds
    obtain ⟨clause, isRead, hasValues⟩ := Lists.forall₂_exists_iff.mp each
    rw [← Outcome.mapM_eq_some_iff] at hasValues
    exact ⟨clause, isRead, Option.map_eq_some_iff.mpr ⟨results, hasValues, rfl⟩⟩
  · intro found
    obtain ⟨clause, isRead, isValue⟩ := found
    obtain ⟨results, hasValues, same⟩ := Option.map_eq_some_iff.mp isValue
    have each := Lists.forall₂_exists_iff.mpr
      ⟨clause, isRead, Outcome.mapM_eq_some_iff.mp hasValues⟩
    refine ⟨results, Outcome.mapM_eq_ok_iff.mpr ?_, congrArg Except.ok same⟩
    exact each.imp fun _ _ holds => comparison_eq_ok_iff.mpr holds

/-- A condition evaluates exactly where its comparisons can be read and have values. -/
theorem evaluate_eq_ok_iff {condition : String} {arguments : Arguments} {flag : Bool} :
    evaluate condition arguments = .ok flag ↔
      ∃ formula, Reads condition formula ∧ value? arguments formula = some flag := by
  rw [evaluate, Outcome.bind_eq_ok_iff]
  constructor
  · intro evaluated
    obtain ⟨results, isResults, same⟩ := evaluated
    cases same
    have each := (Outcome.mapM_eq_ok_iff.mp isResults).imp
      fun _ _ holds => clause_eq_ok_iff.mp holds
    obtain ⟨formula, isRead, hasValues⟩ := Lists.forall₂_exists_iff.mp each
    rw [← Outcome.mapM_eq_some_iff] at hasValues
    exact ⟨formula, isRead, Option.map_eq_some_iff.mpr ⟨results, hasValues, rfl⟩⟩
  · intro found
    obtain ⟨formula, isRead, isValue⟩ := found
    obtain ⟨results, hasValues, same⟩ := Option.map_eq_some_iff.mp isValue
    have each := Lists.forall₂_exists_iff.mpr
      ⟨formula, isRead, Outcome.mapM_eq_some_iff.mp hasValues⟩
    refine ⟨results, Outcome.mapM_eq_ok_iff.mpr ?_, congrArg Except.ok same⟩
    exact each.imp fun _ _ holds => clause_eq_ok_iff.mpr holds

end Phrasebook.Condition
