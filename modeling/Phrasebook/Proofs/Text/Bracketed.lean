/-
This file says where a text in parentheses ends. Parentheses count where they stand outside
literals, and the main statements say which texts are split and into which parts.
-/

import Mathlib.Data.List.Infix
import Mathlib.Data.List.TakeWhile
import Phrasebook.Text.Bracketed

namespace Phrasebook.Text

/-- A character that a test refuses does not stand in a text that passes it. -/
theorem not_mem_of_all {keep : Char → Bool} {character : Char} (stops : keep character = false)
    {text : List Char} (all : text.all keep) : character ∉ text := by
  intro member
  rw [List.all_eq_true] at all
  rw [all _ member] at stops
  cases stops

theorem LiteralState.next_outside {character : Char} (noQuote : character ≠ '"') :
    outside.next character = outside := by
  simp [next, noQuote]

theorem foldl_next_of_noQuote {text : List Char} (noQuote : '"' ∉ text) :
    text.foldl LiteralState.next .outside = .outside := by
  induction text with
  | nil => rfl
  | cons character rest inductionHypothesis =>
      rw [List.mem_cons, not_or] at noQuote
      obtain ⟨differs, further⟩ := noQuote
      rw [List.foldl_cons, LiteralState.next_outside (Ne.symm differs), inductionHypothesis further]

/-- The characters of a text outside literals, and the quotes that open literals. -/
def exposed (state : LiteralState) : List Char → List Char
  | [] => []
  | character :: rest =>
      (if state == .outside then [character] else []) ++ exposed (state.next character) rest

theorem exposed_cons_outside (character : Char) (rest : List Char) :
    exposed .outside (character :: rest) =
      character :: exposed (LiteralState.outside.next character) rest := rfl

theorem exposed_cons_hidden {state : LiteralState} (hidden : state ≠ .outside) (character : Char)
    (rest : List Char) :
    exposed state (character :: rest) = exposed (state.next character) rest := by
  rw [exposed, if_neg (by simpa using hidden), List.nil_append]

theorem exposed_append (state : LiteralState) (first second : List Char) :
    exposed state (first ++ second) =
      exposed state first ++ exposed (first.foldl LiteralState.next state) second := by
  induction first generalizing state with
  | nil => rfl
  | cons character rest inductionHypothesis =>
      rw [List.cons_append, exposed, exposed, inductionHypothesis, List.append_assoc,
        List.foldl_cons]

theorem exposed_of_noQuote {text : List Char} (noQuote : '"' ∉ text) :
    exposed .outside text = text := by
  induction text with
  | nil => rfl
  | cons character rest inductionHypothesis =>
      rw [List.mem_cons, not_or] at noQuote
      obtain ⟨differs, further⟩ := noQuote
      rw [exposed_cons_outside, LiteralState.next_outside (Ne.symm differs),
        inductionHypothesis further]

/-- Outside its literals a text closes the parentheses that it opens and `depth` further ones, no
beginning of it closes more, and it ends outside literals. -/
structure Closes (depth : Nat) (state : LiteralState) (text : List Char) : Prop where
  within : ∀ beginning, beginning <+: text →
    (exposed state beginning).count ')' ≤ depth + (exposed state beginning).count '('
  whole : (exposed state text).count ')' = depth + (exposed state text).count '('
  ends : text.foldl LiteralState.next state = .outside

/-- A text that closes just the parentheses that it opens. -/
def Balanced (text : List Char) : Prop :=
  Closes 0 .outside text

theorem forall_prefix_cons {P : List Char → Prop} {character : Char} {rest : List Char} :
    (∀ beginning, beginning <+: character :: rest → P beginning) ↔
      P [] ∧ ∀ beginning, beginning <+: rest → P (character :: beginning) := by
  simp only [List.prefix_cons_iff]
  constructor
  · intro every
    refine ⟨every [] (.inl rfl), ?_⟩
    intro beginning isBeginning
    exact every _ (.inr ⟨beginning, rfl, isBeginning⟩)
  · rintro ⟨atStart, further⟩ beginning (rfl | ⟨later, rfl, isBeginning⟩)
    · exact atStart
    · exact further later isBeginning

section

variable {depth : Nat} {state : LiteralState} {character : Char} {head inner rest text : List Char}

theorem closes_nil_iff : Closes depth state [] ↔ depth = 0 ∧ state = .outside := by
  constructor
  · intro closes
    have whole : 0 = depth + 0 := closes.whole
    exact ⟨by omega, closes.ends⟩
  · rintro ⟨rfl, rfl⟩
    refine ⟨?_, rfl, rfl⟩
    intro beginning isBeginning
    rw [List.prefix_nil.mp isBeginning]
    exact Nat.le_refl 0

/-- A first character changes how many parentheses the rest has to close. -/
theorem closes_cons_iff :
    Closes depth state (character :: rest) ↔
      (exposed state [character]).count ')' ≤ depth + (exposed state [character]).count '(' ∧
        Closes (depth + (exposed state [character]).count '(' -
          (exposed state [character]).count ')') (state.next character) rest := by
  have count (mark : Char) (text : List Char) : (exposed state (character :: text)).count mark =
      (exposed state [character]).count mark +
        (exposed (state.next character) text).count mark := by
    rw [← List.count_append, ← List.singleton_append, exposed_append]
    rfl
  constructor
  · intro closes
    obtain ⟨_, within⟩ := forall_prefix_cons.mp closes.within
    have first := within [] List.nil_prefix
    have whole := closes.whole
    rw [count ')' rest, count '(' rest] at whole
    refine ⟨first, ?_, by omega, closes.ends⟩
    intro beginning isBeginning
    have bound := within beginning isBeginning
    rw [count ')' beginning, count '(' beginning] at bound
    omega
  · rintro ⟨first, closes⟩
    have whole := closes.whole
    refine ⟨forall_prefix_cons.mpr ⟨Nat.zero_le _, ?_⟩, ?_, closes.ends⟩
    · intro beginning isBeginning
      have bound := closes.within beginning isBeginning
      rw [count ')' beginning, count '(' beginning]
      omega
    · rw [count ')' rest, count '(' rest]
      omega

theorem closes_cons_hidden (hidden : state ≠ .outside) :
    Closes depth state (character :: rest) ↔ Closes depth (state.next character) rest := by
  rw [closes_cons_iff, exposed_cons_hidden hidden]
  simp [exposed]

theorem closes_cons_opening :
    Closes depth .outside ('(' :: rest) ↔ Closes (depth + 1) .outside rest := by
  rw [closes_cons_iff]
  simp [exposed, LiteralState.next]

theorem closes_cons_closing :
    Closes depth .outside (')' :: rest) ↔ 1 ≤ depth ∧ Closes (depth - 1) .outside rest := by
  rw [closes_cons_iff]
  simp [exposed, LiteralState.next]

theorem closes_cons_other (noOpening : character ≠ '(') (noClosing : character ≠ ')') :
    Closes depth .outside (character :: rest) ↔
      Closes depth (LiteralState.outside.next character) rest := by
  rw [closes_cons_iff]
  simp [exposed, noOpening, noClosing]

/-- A text without quotes and parentheses is balanced. -/
theorem balanced_of_plain (noQuote : '"' ∉ text) (noOpening : '(' ∉ text)
    (noClosing : ')' ∉ text) : Balanced text := by
  refine ⟨?_, ?_, foldl_next_of_noQuote noQuote⟩
  · intro beginning isBeginning
    have noneBefore : '"' ∉ beginning := fun member => noQuote (isBeginning.subset member)
    have noneClosed : ')' ∉ beginning := fun member => noClosing (isBeginning.subset member)
    rw [exposed_of_noQuote noneBefore, List.count_eq_zero.mpr noneClosed]
    exact Nat.zero_le _
  · rw [exposed_of_noQuote noQuote, List.count_eq_zero.mpr noClosing,
      List.count_eq_zero.mpr noOpening]

/-- A text that ends with a parenthesis is that parenthesis, or goes on to it. -/
theorem exists_eq_append_closing_iff {P : List Char → Prop} :
    (∃ inner, character :: rest = inner ++ [')'] ∧ P inner) ↔
      (character = ')' ∧ rest = [] ∧ P []) ∨
        ∃ inner, rest = inner ++ [')'] ∧ P (character :: inner) := by
  constructor
  · rintro ⟨inner, isText, holds⟩
    obtain ⟨rfl, same⟩ | ⟨later, rfl, same⟩ := List.cons_eq_append_iff.mp isText
    · cases same
      exact .inl ⟨rfl, rfl, holds⟩
    · exact .inr ⟨later, same, holds⟩
  · rintro (⟨rfl, rfl, holds⟩ | ⟨inner, rfl, holds⟩)
    · exact ⟨[], rfl, holds⟩
    · exact ⟨character :: inner, rfl, holds⟩

/-- The inner part ends at the last character of the text, which closes it. -/
theorem splitInner_eq_ok_iff {reversed result : List Char} :
    splitInner depth state reversed text = .ok result ↔
      ∃ inner, text = inner ++ [')'] ∧
        result = reversed.reverse ++ inner ∧ Closes depth state inner := by
  -- the scanner counts what is open as `Closes` does, so each of its tests is a law of `Closes`
  induction text generalizing depth state reversed with
  | nil => simp [splitInner]
  | cons character rest inductionHypothesis =>
      have proceeds (depth : Nat) (state : LiteralState) :
          splitInner depth state (character :: reversed) rest = .ok result ↔
            ∃ inner, rest = inner ++ [')'] ∧ result = reversed.reverse ++ character :: inner ∧
              Closes depth state inner := by
        rw [inductionHypothesis]
        simp
      rw [exists_eq_append_closing_iff, splitInner.eq_def]
      by_cases hidden : state = .outside
      · subst hidden
        by_cases opens : character = '('
        · subst opens
          simp [closes_cons_opening, proceeds, LiteralState.next]
        · by_cases closed : character = ')'
          · subst closed
            cases depth with
            | zero =>
                -- the text is closed here, so nothing may follow
                cases rest with
                | nil => simpa [closes_cons_closing, closes_nil_iff] using eq_comm
                | cons next further => simp [closes_cons_closing]
            | succ outer =>
                simp [closes_cons_closing, closes_nil_iff, proceeds, LiteralState.next]
          · simp [opens, closed, closes_cons_other opens closed, proceeds]
      · simp [hidden, closes_nil_iff, closes_cons_hidden hidden, proceeds]

/-- A text in parentheses behind a head. -/
structure Bracketed (text head inner : List Char) : Prop where
  isText : text = head ++ '(' :: inner ++ [')']
  first : '(' ∉ head
  balanced : Balanced inner

theorem splitBracketed_append (first : '(' ∉ head) :
    splitBracketed (head ++ '(' :: rest) =
      (splitInner 0 .outside [] rest).map fun inner => some (head, inner) := by
  have passed : ∀ character ∈ head, (character != '(') = true := by
    intro character member
    rw [bne_iff_ne]
    rintro rfl
    exact first member
  have behind : ('(' :: rest).dropWhile (· != '(') = '(' :: rest := rfl
  have before : ('(' :: rest).takeWhile (· != '(') = [] := rfl
  rw [splitBracketed, List.dropWhile_append_of_pos passed, List.takeWhile_append_of_pos passed,
    behind, before, List.append_nil]
  rfl

theorem splitBracketed_of_noOpening (noOpening : '(' ∉ text) :
    splitBracketed text = if text.contains ')' then .error .unbalanced else .ok none := by
  have none : text.dropWhile (· != '(') = [] := by
    rw [List.dropWhile_eq_nil_iff]
    intro character member
    rw [bne_iff_ne]
    rintro rfl
    exact noOpening member
  rw [splitBracketed, none]

/-- A text is split exactly where it is bracketed. -/
theorem splitBracketed_eq_some_iff :
    splitBracketed text = .ok (some (head, inner)) ↔ Bracketed text head inner := by
  constructor
  · intro isSplit
    by_cases opens : '(' ∈ text
    · obtain ⟨before, rest, rfl, first⟩ := List.eq_append_cons_of_mem opens
      rw [splitBracketed_append first] at isSplit
      cases isInner : splitInner 0 .outside [] rest with
      | error fault =>
          rw [isInner] at isSplit
          cases isSplit
      | ok found =>
          rw [isInner] at isSplit
          cases isSplit
          obtain ⟨_, rfl, rfl, balanced⟩ := splitInner_eq_ok_iff.mp isInner
          exact ⟨by simp, first, balanced⟩
    · rw [splitBracketed_of_noOpening opens] at isSplit
      split at isSplit <;> cases isSplit
  · rintro ⟨rfl, first, balanced⟩
    rw [List.append_assoc, List.cons_append, splitBracketed_append first,
      splitInner_eq_ok_iff.mpr ⟨inner, rfl, rfl, balanced⟩]
    rfl

/-- A text without parts is one without parentheses. -/
theorem splitBracketed_eq_none_iff :
    splitBracketed text = .ok none ↔ '(' ∉ text ∧ ')' ∉ text := by
  constructor
  · intro isSplit
    by_cases opens : '(' ∈ text
    · obtain ⟨before, rest, rfl, first⟩ := List.eq_append_cons_of_mem opens
      rw [splitBracketed_append first] at isSplit
      cases isInner : splitInner 0 .outside [] rest <;> rw [isInner] at isSplit <;> cases isSplit
    · rw [splitBracketed_of_noOpening opens] at isSplit
      split at isSplit
      · cases isSplit
      · rename_i noClosing
        exact ⟨opens, by simpa using noClosing⟩
  · rintro ⟨noOpening, noClosing⟩
    rw [splitBracketed_of_noOpening noOpening]
    simpa using noClosing

/-- Every other text is refused. -/
theorem exists_splitBracketed_eq_error_iff :
    (∃ fault, splitBracketed text = .error fault) ↔
      ('(' ∈ text ∨ ')' ∈ text) ∧ ∀ head inner, ¬Bracketed text head inner := by
  have noParts : ('(' ∈ text ∨ ')' ∈ text) ↔ splitBracketed text ≠ .ok none := by
    rw [Ne, splitBracketed_eq_none_iff, not_and_or, not_not, not_not]
  simp only [noParts, ← splitBracketed_eq_some_iff]
  cases splitBracketed text with
  | error fault => simp
  | ok parts =>
      cases parts with
      | none => simp
      | some found =>
          obtain ⟨head, inner⟩ := found
          simp

/-- A text has its parts in one way. -/
theorem Bracketed.unique {otherHead otherInner : List Char} (first : Bracketed text head inner)
    (second : Bracketed text otherHead otherInner) : head = otherHead ∧ inner = otherInner := by
  have same := (splitBracketed_eq_some_iff.mpr first).symm.trans
    (splitBracketed_eq_some_iff.mpr second)
  cases same
  exact ⟨rfl, rfl⟩

end

end Phrasebook.Text
