/-
This file says where a text is split at doubled marks. Texts that show no mark outside their
literals, joined by doubled marks, are split into just these texts.
-/

import Phrasebook.Proofs.Preview.Clause

namespace Phrasebook.Condition

open Text

variable {mark : Char} {state : LiteralState} {front further rest : List Char}

/-- A text that ends outside literals and shows a mark only inside them. -/
structure Guarded (mark : Char) (text : List Char) : Prop where
  closed : text.foldl LiteralState.next .outside = .outside
  free : mark ∉ exposed .outside text

theorem guarded_of_noQuote {text : List Char} (noQuote : '"' ∉ text) (absent : mark ∉ text) :
    Guarded mark text := by
  refine ⟨foldl_next_of_noQuote noQuote, ?_⟩
  rw [exposed_of_noQuote noQuote]
  exact absent

theorem Guarded.append {first second : List Char} (isFirst : Guarded mark first)
    (isSecond : Guarded mark second) : Guarded mark (first ++ second) := by
  constructor
  · rw [List.foldl_append, isFirst.closed, isSecond.closed]
  · rw [exposed_append, isFirst.closed, List.mem_append, not_or]
    exact ⟨isFirst.free, isSecond.free⟩

theorem splitOutside_cons {character : Char} (kept : state = .outside → character ≠ mark)
    (reversed : List Char) :
    splitOutside mark state reversed (character :: rest) =
      splitOutside mark (state.next character) (character :: reversed) rest := by
  cases rest with
  | nil => rfl
  | cons second others =>
      have noMark : ¬(state == .outside && character == mark && second == mark) = true := by
        simp only [Bool.and_eq_true, beq_iff_eq]
        rintro ⟨⟨isOutside, isMark⟩, _⟩
        exact kept isOutside isMark
      rw [splitOutside, if_neg noMark]

/-- A text is not split where it shows no mark. -/
theorem splitOutside_append (free : mark ∉ exposed state front) (reversed : List Char) :
    splitOutside mark state reversed (front ++ rest) =
      splitOutside mark (front.foldl LiteralState.next state) (front.reverse ++ reversed) rest := by
  induction front generalizing state reversed with
  | nil => rfl
  | cons character others inductionHypothesis =>
      rw [exposed, List.mem_append, not_or] at free
      obtain ⟨first, later⟩ := free
      have kept : state = .outside → character ≠ mark := by
        rintro rfl rfl
        exact first List.mem_cons_self
      rw [List.cons_append, splitOutside_cons kept, inductionHypothesis later, List.foldl_cons,
        List.reverse_cons, List.append_assoc, List.singleton_append]

/-- What stands before a text belongs to its first part. -/
theorem splitOutside_reversed (mark : Char) (state : LiteralState)
    (reversed before text : List Char) :
    splitOutside mark state (reversed ++ before) text =
      (splitOutside mark state reversed text).modifyHead (before.reverse ++ ·) := by
  induction state, reversed, text using splitOutside.induct mark with
  | case1 => simp [splitOutside]
  | case2 => simp [splitOutside]
  | case3 state reversed first second rest isMark _ =>
      rw [splitOutside, splitOutside, if_pos isMark, if_pos isMark]
      simp
  | case4 state reversed first second rest noMark inductionHypothesis =>
      rw [splitOutside, splitOutside, if_neg noMark, if_neg noMark]
      exact inductionHypothesis

theorem Guarded.splitOutside_eq (guarded : Guarded mark front) :
    splitOutside mark .outside [] front = [front] := by
  have passed : splitOutside mark .outside [] (front ++ []) = _ :=
    splitOutside_append guarded.free []
  rw [List.append_nil, List.append_nil] at passed
  rw [passed, splitOutside, List.reverse_reverse]

theorem Guarded.splitOutside_append (guarded : Guarded mark front) :
    splitOutside mark .outside [] (front ++ mark :: mark :: rest) =
      front :: splitOutside mark .outside [] rest := by
  rw [Condition.splitOutside_append guarded.free, guarded.closed, splitOutside, if_pos (by simp),
    List.append_nil, List.reverse_reverse]

/-- A text that shows no mark stays with the first part of the text behind it. -/
theorem Guarded.splitOutside_modifyHead (guarded : Guarded mark front) :
    splitOutside mark .outside [] (front ++ rest) =
      (splitOutside mark .outside [] rest).modifyHead (front ++ ·) := by
  have passed := splitOutside_reversed mark .outside [] front.reverse rest
  rw [List.nil_append, List.reverse_reverse] at passed
  rw [Condition.splitOutside_append guarded.free, guarded.closed, List.append_nil, passed]

/-- Texts joined by doubled marks, with what they are read as. -/
inductive Joined {A : Type} (mark : Char) (Part : List Char → A → Prop) :
    List Char → List A → Prop
  | single {text : List Char} {item : A} (part : Part text item) : Joined mark Part text [item]
  | more {text further : List Char} {item : A} {items : List A} (part : Part text item)
      (rest : Joined mark Part further items) :
      Joined mark Part (text ++ mark :: mark :: further) (item :: items)

namespace Joined

variable {A : Type} {Part : List Char → A → Prop} {text : List Char} {items : List A}

theorem of_forall₂ {texts : List (List Char)} (parts : List.Forall₂ Part texts items)
    (inhabited : texts ≠ []) : Joined mark Part ([mark, mark].intercalate texts) items := by
  induction parts with
  | nil => exact absurd rfl inhabited
  | @cons text item texts items part rest inductionHypothesis =>
      cases rest with
      | nil =>
          rw [List.intercalate_singleton]
          exact .single part
      | cons second others =>
          have further := inductionHypothesis (List.cons_ne_nil _ _)
          rw [List.intercalate_cons_cons, List.append_assoc]
          exact .more part further

/-- Joined texts are split into their parts. -/
theorem forall₂_iff (guards : ∀ text item, Part text item → Guarded mark text) :
    Joined mark Part text items ↔ List.Forall₂ Part (splitOutside mark .outside [] text) items := by
  constructor
  · intro joined
    induction joined with
    | single part =>
        rw [(guards _ _ part).splitOutside_eq]
        exact .cons part .nil
    | more part _ inductionHypothesis =>
        rw [(guards _ _ part).splitOutside_append]
        exact .cons part inductionHypothesis
  · intro parts
    have joined : Joined mark Part ([mark, mark].intercalate _) items :=
      of_forall₂ parts (splitOutside_ne_nil _ _ _ _)
    rwa [intercalate_splitOutside] at joined

theorem splitOutside_append (joined : Joined mark Part text items)
    (guards : ∀ text item, Part text item → Guarded mark text) (rest : List Char) :
    splitOutside mark .outside [] (text ++ mark :: mark :: rest) =
      splitOutside mark .outside [] text ++ splitOutside mark .outside [] rest := by
  induction joined with
  | single part =>
      rw [(guards _ _ part).splitOutside_append, (guards _ _ part).splitOutside_eq]
      rfl
  | @more text further item items part _ inductionHypothesis =>
      have guarded := guards _ _ part
      rw [List.append_assoc, List.cons_append, List.cons_append, guarded.splitOutside_append,
        guarded.splitOutside_append, inductionHypothesis]
      rfl

/-- Texts that guard another mark do so when they are joined. -/
theorem guarded {other : Char} (joined : Joined mark Part text items)
    (guards : ∀ text item, Part text item → Guarded other text) (differs : other ≠ mark)
    (noQuote : mark ≠ '"') : Guarded other text := by
  have marks : Guarded other [mark, mark] := by
    apply guarded_of_noQuote
    · simpa using Ne.symm noQuote
    · simpa using differs
  induction joined with
  | single part => exact guards _ _ part
  | more part _ inductionHypothesis =>
      exact (guards _ _ part).append (marks.append inductionHypothesis)

end Joined

end Phrasebook.Condition
