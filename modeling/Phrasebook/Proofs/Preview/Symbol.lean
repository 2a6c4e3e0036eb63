/-
This file says how the symbols of an expression are read: blanks and operators complete the symbol
before them and change nothing else.
-/

import Mathlib.Tactic.ByContra
import Phrasebook.Proofs.Preview.Expression
import Phrasebook.Proofs.Text.Identifier

namespace Phrasebook

open Text

namespace Expression

/-- No literal and no operator is open. -/
def Stage.Resting : Stage → Prop
  | between => True
  | word _ => True
  | closed => True
  | literal .. => False
  | mark _ => False

/-- What ends a name ends every symbol that may be complete. -/
theorem Stage.next_of_resting {stage after : Stage} {character : Char} {written : List Symbol}
    (resting : stage.Resting) (ends : continuesName character = false)
    (noQuote : character ≠ '"') (isNext : stage.next character = some (after, written)) :
    enter? character = some after ∧ stage.finish? = some written := by
  have quoted : (character == '"') = false := beq_eq_false_iff_ne.mpr noQuote
  cases stage with
  | between =>
      obtain ⟨_, isEntered, same⟩ := Option.map_eq_some_iff.mp isNext
      cases same
      exact ⟨isEntered, rfl⟩
  | closed =>
      rw [next, ends] at isNext
      obtain ⟨_, isEntered, same⟩ := Option.map_eq_some_iff.mp isNext
      cases same
      exact ⟨isEntered, rfl⟩
  | word reversed =>
      rw [next, ends, quoted] at isNext
      simp only [Bool.false_eq_true, if_false] at isNext
      split at isNext
      · rename_i symbol entered isName isEntered
        cases isNext
        exact ⟨isEntered, by rw [finish?, isName]; rfl⟩
      · cases isNext
  | literal => exact resting.elim
  | mark => exact resting.elim

/-- Blanks lead between symbols. -/
theorem Stage.enter_blank {character : Char} {after : Stage} (blank : isBlank character)
    (isEntered : enter? character = some after) : after = between := by
  have noName := not_continuesName_of_isBlank blank
  have noStart : startsName character = false := by
    by_contra starts
    rw [continuesName_of_startsName (Bool.not_eq_false _ ▸ starts)] at noName
    cases noName
  have noQuote : (character == '"') = false := by
    rw [beq_eq_false_iff_ne]
    rintro rfl
    exact absurd blank (by decide)
  have noOperator : startsOperator character = false := by
    by_contra starts
    simp only [startsOperator, Bool.not_eq_false, Bool.or_eq_true, beq_iff_eq] at starts
    rcases starts with ((rfl | rfl) | rfl) | rfl <;> exact absurd blank (by decide)
  simp only [enter?, noStart, noQuote, noOperator, Bool.false_eq_true, if_false] at isEntered
  obtain ⟨_, same⟩ := Option.ite_none_right_eq_some.mp isEntered
  exact (Option.some.inj same).symm

theorem Stage.next_blank {stage after : Stage} {character : Char} {written : List Symbol}
    (resting : stage.Resting) (blank : isBlank character)
    (isNext : stage.next character = some (after, written)) :
    after = between ∧ stage.finish? = some written := by
  have noQuote : character ≠ '"' := by
    rintro rfl
    exact absurd blank (by decide)
  obtain ⟨isEntered, isFinished⟩ :=
    next_of_resting resting (not_continuesName_of_isBlank blank) noQuote isNext
  exact ⟨enter_blank blank isEntered, isFinished⟩

/-- Blanks only complete what may end before them. -/
theorem Stage.scan_blanks {blanks : List Char} {stage after : Stage} {written : List Symbol}
    (resting : stage.Resting) (blank : blanks.all isBlank)
    (scanned : scan Stage.next stage blanks = some (after, written)) :
    after.Resting ∧ ∀ pending, after.finish? = some pending →
      stage.finish? = some (written ++ pending) := by
  induction blanks generalizing stage written with
  | nil =>
      cases scanned
      exact ⟨resting, fun _ isPending => isPending⟩
  | cons character rest inductionHypothesis =>
      rw [List.all_cons, Bool.and_eq_true] at blank
      obtain ⟨middle, first, further, isNext, isRest, rfl⟩ := scan_cons_eq_some_iff.mp scanned
      obtain ⟨rfl, isFinished⟩ := next_blank resting blank.1 isNext
      have isBetween : between.Resting := trivial
      obtain ⟨rests, isDone⟩ := inductionHypothesis isBetween blank.2 isRest
      refine ⟨rests, ?_⟩
      intro pending isPending
      have noMore : [] = further ++ pending := Option.some.inj (isDone pending isPending)
      rw [isFinished, List.append_assoc, ← noMore, List.append_nil]

/-- Between symbols blanks change nothing. -/
theorem Stage.scan_blanks_between {blanks : List Char} {after : Stage} {written : List Symbol}
    (blank : blanks.all isBlank)
    (scanned : scan Stage.next .between blanks = some (after, written)) :
    after = between ∧ written = [] := by
  induction blanks generalizing written with
  | nil =>
      cases scanned
      exact ⟨rfl, rfl⟩
  | cons character rest inductionHypothesis =>
      rw [List.all_cons, Bool.and_eq_true] at blank
      obtain ⟨middle, first, further, isNext, isRest, rfl⟩ := scan_cons_eq_some_iff.mp scanned
      obtain ⟨rfl, isFinished⟩ := next_blank (show between.Resting from trivial) blank.1 isNext
      obtain ⟨rfl, rfl⟩ := inductionHypothesis blank.2 isRest
      cases isFinished
      exact ⟨rfl, rfl⟩

/-- Letters, digits and underscores stay in a word. -/
theorem Stage.scan_word {rest : List Char} (all : rest.all continuesName) (reversed : List Char) :
    scan Stage.next (.word reversed) rest = some (.word (rest.reverse ++ reversed), []) := by
  apply scan_gather _ all
  intro character reversed continues
  rw [Stage.next, if_pos continues]

theorem symbols_eq_some_iff {text : List Char} {symbols : List Symbol} :
    symbols? text = some symbols ↔ ∃ after written pending,
      scan Stage.next .between text = some (after, written) ∧ after.finish? = some pending ∧
        written ++ pending = symbols := by
  rw [symbols?]
  cases scan Stage.next .between text with
  | none => simp
  | some result =>
      obtain ⟨after, written⟩ := result
      rw [Option.map_eq_some_iff]
      constructor
      · intro finished
        obtain ⟨pending, isPending, same⟩ := finished
        exact ⟨after, written, pending, rfl, isPending, same⟩
      · intro parts
        obtain ⟨_, _, pending, isScanned, isPending, same⟩ := parts
        cases isScanned
        exact ⟨pending, isPending, same⟩

theorem startsOperator_of_symbol {first second : Char} {operator : Symbol}
    (isOperator : operatorSymbol? first second = some operator) :
    startsOperator first ∧ second ≠ '"' := by
  rw [operatorSymbol?.eq_def] at isOperator
  split at isOperator
  all_goals first
    | exact ⟨by decide, by decide⟩
    | cases isOperator

/-- An operator begins where a symbol may end. -/
theorem Stage.next_operator {stage after : Stage} {first : Char} {written : List Symbol}
    (resting : stage.Resting) (starts : startsOperator first)
    (isNext : stage.next first = some (after, written)) :
    after = .mark first ∧ stage.finish? = some written := by
  simp only [startsOperator, Bool.or_eq_true, beq_iff_eq] at starts
  have isMark : continuesName first = false ∧ first ≠ '"' ∧
      enter? first = some (.mark first) := by
    rcases starts with ((rfl | rfl) | rfl) | rfl <;> decide
  obtain ⟨ends, noQuote, isMark⟩ := isMark
  obtain ⟨isEntered, isFinished⟩ := next_of_resting resting ends noQuote isNext
  exact ⟨Option.some.inj (isEntered.symm.trans isMark), isFinished⟩

end Expression

end Phrasebook
