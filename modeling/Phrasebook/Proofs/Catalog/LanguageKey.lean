/-
This file says how the key of a wording is read. The main statement is that a key is split exactly
at the parentheses around its balanced condition.
-/

import Phrasebook.Proofs.Catalog.Draft
import Phrasebook.Proofs.Text.Blank
import Phrasebook.Proofs.Text.Bracketed

namespace Phrasebook

open Text

theorem Language.noOpening_of_check {code : String} (checked : Language.check code = .ok ()) :
    '(' ∉ code.toList := by
  obtain ⟨isCode, _⟩ := Language.isCode_of_check checked
  cases isText : code.toList with
  | nil => exact List.not_mem_nil
  | cons first rest =>
      rw [isText, Language.isCode, Bool.and_eq_true] at isCode
      have noFirst : '(' ≠ first := by
        rintro rfl
        exact absurd isCode.1 (by decide)
      have noRest : '(' ∉ rest := not_mem_of_all (by decide) isCode.2
      exact List.not_mem_cons_of_ne_of_not_mem noFirst noRest

namespace LanguageKey

/-- A key without parentheses is a language. -/
theorem split_eq_plain_iff {raw language : String} :
    split raw = .ok (.plain language) ↔
      language = raw ∧ '(' ∉ raw.toList ∧ ')' ∉ raw.toList := by
  rw [← splitBracketed_eq_none_iff, split]
  constructor
  · intro isSplit
    split at isSplit
    · cases isSplit
    · rename_i none
      cases isSplit
      exact ⟨rfl, none⟩
    · dsimp only at isSplit
      split at isSplit <;> cases isSplit
  · rintro ⟨rfl, none⟩
    rw [none]

/-- A condition stands between parentheses, and the blanks at its ends do not count. -/
theorem split_eq_conditional_iff {raw language condition : String} :
    split raw = .ok (.conditional language condition) ↔
      ∃ inner, Bracketed raw.toList language.toList inner ∧ ¬inner.all isBlank ∧
        condition = String.ofList (trim inner) := by
  constructor
  · intro isSplit
    rw [split] at isSplit
    split at isSplit
    · cases isSplit
    · cases isSplit
    · rename_i head inner isBracketed
      dsimp only at isSplit
      split at isSplit
      · cases isSplit
      · rename_i inhabited
        cases isSplit
        rw [List.isEmpty_iff, trim_eq_nil_iff] at inhabited
        rw [splitBracketed_eq_some_iff] at isBracketed
        rw [String.toList_ofList]
        exact ⟨inner, isBracketed, inhabited, rfl⟩
  · rintro ⟨inner, bracketed, notBlank, rfl⟩
    rw [← trim_eq_nil_iff, ← List.isEmpty_iff] at notBlank
    rw [split, splitBracketed_eq_some_iff.mpr bracketed]
    dsimp only
    rw [if_neg notBlank, String.ofList_toList]

/-- A text has parts exactly where it is a head without an opening parenthesis and a balanced text
in parentheses, it has none exactly where it has no parentheses, and every other text is refused.
So a language with a balanced condition is read as these two, a plain key is the language itself,
and no text has two readings. -/
theorem splitBracketed_exact :
    (∀ text head inner : List Char,
      splitBracketed text = .ok (some (head, inner)) ↔
        text = head ++ '(' :: inner ++ [')'] ∧ '(' ∉ head ∧ Balanced inner) ∧
    (∀ text : List Char, splitBracketed text = .ok none ↔ '(' ∉ text ∧ ')' ∉ text) ∧
    (∀ text : List Char, (∃ fault, splitBracketed text = .error fault) ↔
      ('(' ∈ text ∨ ')' ∈ text) ∧ ∀ head inner, ¬Bracketed text head inner) ∧
    (∀ entry code inner : String, Language.check code = .ok () → Balanced inner.toList →
      ¬inner.toList.all isBlank →
        parse entry (code ++ "(" ++ inner ++ ")") =
          .ok (.conditional code (String.ofList (trim inner.toList)))) ∧
    (∀ entry raw language : String, parse entry raw = .ok (.plain language) → language = raw) ∧
    ∀ text head inner otherHead otherInner : List Char, Bracketed text head inner →
      Bracketed text otherHead otherInner → head = otherHead ∧ inner = otherInner := by
  refine ⟨?_, ?_, ?_, ?_, ?_, ?_⟩
  · intro text head inner
    rw [splitBracketed_eq_some_iff]
    constructor
    · intro bracketed
      exact ⟨bracketed.isText, bracketed.first, bracketed.balanced⟩
    · rintro ⟨isText, first, balanced⟩
      exact ⟨isText, first, balanced⟩
  · intro text
    exact splitBracketed_eq_none_iff
  · intro text
    rw [exists_splitBracketed_eq_error_iff]
  · intro entry code inner checked balanced notBlank
    rw [parse_eq_ok_iff, split_eq_conditional_iff]
    refine ⟨inner.toList, ⟨?_, Language.noOpening_of_check checked, balanced⟩, notBlank, rfl⟩
    simp
  · intro entry raw language isPlain
    exact (split_eq_plain_iff.mp (parse_eq_ok_iff.mp isPlain)).1
  · intro text head inner otherHead otherInner first second
    exact first.unique second

/-- Parentheses and an escaped quote in the literals of a condition do not end it. -/
theorem splitBracketed_exact_quoted :
    Language.check "en" = .ok () ∧
      Balanced " (a == \")\") && b != \"\\\")(\"".toList ∧
      parse "houses" "en( (a == \")\") && b != \"\\\")(\")" =
        .ok (.conditional "en" "(a == \")\") && b != \"\\\")(\"") := by
  have checked : Language.check "en" = .ok () := by
    decide +kernel
  have isSplit : splitBracketed "en( (a == \")\") && b != \"\\\")(\")".toList =
      .ok (some ("en".toList, " (a == \")\") && b != \"\\\")(\"".toList)) := by
    decide +kernel
  have notBlank : ¬" (a == \")\") && b != \"\\\")(\"".toList.all isBlank := by
    decide +kernel
  have isTrimmed : String.ofList (trim " (a == \")\") && b != \"\\\")(\"".toList) =
      "(a == \")\") && b != \"\\\")(\"" := by
    decide +kernel
  obtain ⟨parts, _, _, conditional, _⟩ := splitBracketed_exact
  have balanced := ((parts _ _ _).mp isSplit).2.2
  have isRead := conditional "houses" "en" _ checked balanced notBlank
  rw [isTrimmed] at isRead
  exact ⟨checked, balanced, isRead⟩

end LanguageKey

end Phrasebook
