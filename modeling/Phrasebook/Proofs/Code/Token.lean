/-
This file splits a line of code into words, literals and marks.
-/

import Phrasebook.Proofs.Text.Literal
import Phrasebook.Text.Blank
import Phrasebook.Text.Identifier

namespace Phrasebook.Code

open Text

inductive Token where
  /-- Letters, digits and underscores. -/
  | word (text : String)
  | literal (text : String)
  | mark (character : Char)
  deriving Repr, DecidableEq

/-- Where a reader of a line stands. -/
inductive Place where
  | between
  | word (reversed : List Char)
  | literal (state : EscapeState) (read : List Char)
  deriving Repr, DecidableEq

namespace Place

/-- The place after a character that follows no token, and the tokens that are complete then. -/
def enter (character : Char) : Place × List Token :=
  if continuesName character then (word [character], [])
  else if character == '"' then (literal .plain [], [])
  else if isBlank character then (between, [])
  else (between, [.mark character])

def next (place : Place) (character : Char) : Option (Place × List Token) :=
  match place with
  | between => some (enter character)
  | word reversed =>
      if continuesName character then some (word (character :: reversed), [])
      else
        let (after, tokens) := enter character
        some (after, .word (String.ofList reversed.reverse) :: tokens)
  | literal state read =>
      if state == .plain && character == '"' then some (between, [.literal (String.ofList read)])
      else (state.next character).map fun (after, complete) =>
        (literal after (read ++ complete), [])

/-- The last token of a line, unless that is an open literal. -/
def finish : Place → Option (List Token)
  | between => some []
  | word reversed => some [.word (String.ofList reversed.reverse)]
  | literal .. => none

end Place

/-- The tokens of a line. -/
def tokens? (line : String) : Option (List Token) :=
  match scan Place.next .between line.toList with
  | none => none
  | some (after, tokens) => after.finish.map (tokens ++ ·)

/-- Between two places a text spells the tokens. -/
def Spells (before : Place) (text : String) (tokens : List Token) (after : Place) : Prop :=
  scan Place.next before text.toList = some (after, tokens)

/-- A text of letters, digits and underscores. -/
def IsWord (text : String) : Prop :=
  text ≠ "" ∧ text.toList.all continuesName

theorem IsWord.exists_cons {text : String} (isWord : IsWord text) :
    ∃ first rest, text.toList = first :: rest ∧ continuesName first ∧ rest.all continuesName := by
  obtain ⟨notEmpty, all⟩ := isWord
  cases isText : text.toList with
  | nil => exact absurd (String.toList_eq_nil_iff.mp isText) notEmpty
  | cons first rest =>
      rw [isText, List.all_cons, Bool.and_eq_true] at all
      exact ⟨first, rest, rfl, all⟩

/-- Letters, digits and underscores stay in a word. -/
theorem Place.scan_word {rest : List Char} (all : rest.all continuesName) (reversed : List Char) :
    scan Place.next (.word reversed) rest = some (.word (rest.reverse ++ reversed), []) := by
  apply scan_gather _ all
  intro character reversed continues
  rw [Place.next, if_pos continues]

/-- Reading characters of a literal stays inside it. -/
theorem Place.scan_literal {state after : EscapeState} {inner more : List Char}
    (isRead : scan EscapeState.next state inner = some (after, more)) (read : List Char) :
    scan Place.next (.literal state read) inner = some (.literal after (read ++ more), []) := by
  induction inner generalizing state read more with
  | nil =>
      cases isRead
      rw [List.append_nil]
      rfl
  | cons character rest inductionHypothesis =>
      obtain ⟨middle, complete, further, isNext, isRest, rfl⟩ := scan_cons_eq_some_iff.mp isRead
      -- a quote would have ended the literal here
      have inside : ¬((state == .plain && character == '"') = true) := by
        intro ends
        rw [Bool.and_eq_true, beq_iff_eq, beq_iff_eq] at ends
        rw [ends.1, ends.2] at isNext
        cases isNext
      have isPlace : (Place.literal state read).next character =
          some (.literal middle (read ++ complete), []) := by
        rw [Place.next, if_neg inside, isNext]
        rfl
      rw [← List.append_assoc]
      exact scan_cons isPlace (inductionHypothesis isRest (read ++ complete))

namespace Spells

theorem append {before middle after : Place} {first second : String} {tokens more : List Token}
    (isFirst : Spells before first tokens middle) (isSecond : Spells middle second more after) :
    Spells before (first ++ second) (tokens ++ more) after := by
  rw [Spells, String.toList_append]
  exact scan_append isFirst isSecond

theorem word {text : String} (isWord : IsWord text) :
    Spells .between text [] (.word text.toList.reverse) := by
  obtain ⟨first, rest, isText, isFirst, isRest⟩ := isWord.exists_cons
  have isNext : Place.between.next first = some (.word [first], []) := by
    rw [Place.next, Place.enter, if_pos isFirst]
  rw [Spells, isText, List.reverse_cons]
  exact scan_cons isNext (Place.scan_word isRest [first])

/-- A word ends where the text behind it closes every word. -/
theorem wordThen {text suffix : String} {tokens : List Token} {after : Place}
    (isWord : IsWord text)
    (closes : ∀ reversed, Spells (.word reversed) suffix
      (.word (String.ofList reversed.reverse) :: tokens) after) :
    Spells .between (text ++ suffix) (.word text :: tokens) after := by
  have isSuffix := closes text.toList.reverse
  rw [List.reverse_reverse, String.ofList_toList] at isSuffix
  exact (word isWord).append isSuffix

/-- Words between commas. -/
theorem wordsThen {texts : List String} {suffix : String} {tokens : List Token} {after : Place}
    (notEmpty : texts ≠ []) (areWords : ∀ text ∈ texts, IsWord text)
    (closes : ∀ reversed, Spells (.word reversed) suffix
      (.word (String.ofList reversed.reverse) :: tokens) after) :
    Spells .between (", ".intercalate texts ++ suffix)
      ((texts.map Token.word).intersperse (.mark ',') ++ tokens) after := by
  induction texts with
  | nil => exact absurd rfl notEmpty
  | cons text rest inductionHypothesis =>
      obtain ⟨isWord, further⟩ := List.forall_mem_cons.mp areWords
      cases rest with
      | nil =>
          rw [String.intercalate_singleton]
          exact wordThen isWord closes
      | cons second others =>
          have isFirst : Spells .between (text ++ ", ") [.word text, .mark ','] .between :=
            wordThen isWord fun _ => rfl
          rw [String.intercalate_cons_cons, String.append_assoc]
          exact isFirst.append (inductionHypothesis (by simp) further)

theorem quote (text : String) : Spells .between (quote text) [.literal text] .between := by
  have opened : scan Place.next .between ['"'] = some (.literal .plain [], []) := rfl
  have inside := Place.scan_literal (EscapeState.scan_escapes text.toList) []
  have closed : scan Place.next (.literal .plain ([] ++ text.toList)) ['"'] =
      some (.between, [.literal text]) := by
    apply scan_singleton
    rw [List.nil_append, Place.next, if_pos (by decide), String.ofList_toList]
  rw [Spells, Text.quote, String.toList_ofList]
  exact scan_append (scan_append opened inside) closed

/-- The tokens of a line that ends between tokens. -/
theorem tokens_eq {line : String} {tokens : List Token}
    (spells : Spells .between line tokens .between) : tokens? line = some tokens := by
  rw [Spells] at spells
  rw [tokens?, spells]
  simp [Place.finish]

end Spells

/-- A line that is one word. -/
theorem IsWord.tokens_eq {text : String} (isWord : IsWord text) :
    tokens? text = some [.word text] := by
  have spells := Spells.word isWord
  rw [Spells] at spells
  rw [tokens?, spells]
  simp [Place.finish]

end Phrasebook.Code
