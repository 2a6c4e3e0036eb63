/-
This file says what is left of a text when the blanks at its ends are removed.
-/

import Mathlib.Data.List.TakeWhile
import Phrasebook.Text.Blank

namespace Phrasebook.Text

variable {before core after text : List Char}

/-- The code points of the blank characters. -/
def blankCodes : List Nat :=
  [9, 10, 11, 12, 13, 0x20, 0x85, 0xA0, 0x1680, 0x2000, 0x2001, 0x2002, 0x2003, 0x2004, 0x2005,
    0x2006, 0x2007, 0x2008, 0x2009, 0x200A, 0x2028, 0x2029, 0x202F, 0x205F, 0x3000]

/-- A text of blank characters, which may be empty. -/
def IsGap (text : List Char) : Prop :=
  ∀ character ∈ text, character.toNat ∈ blankCodes

theorem isBlank_iff {character : Char} : isBlank character ↔ character.toNat ∈ blankCodes := by
  simp only [isBlank, blankCodes, Bool.or_eq_true, Bool.and_eq_true, decide_eq_true_eq,
    beq_iff_eq, List.mem_cons, List.not_mem_nil, or_false]
  omega

theorem isGap_iff : IsGap text ↔ text.all isBlank := by
  simp only [IsGap, List.all_eq_true, isBlank_iff]

theorem IsGap.not_mem (gap : IsGap text) {character : Char} (solid : isBlank character = false) :
    character ∉ text := by
  intro member
  rw [isBlank_iff.mpr (gap character member)] at solid
  cases solid

/-- What is removed at the start is blank. -/
theorem exists_trimStart (text : List Char) :
    ∃ before, text = before ++ trimStart text ∧ before.all isBlank :=
  ⟨text.takeWhile isBlank, List.takeWhile_append_dropWhile.symm, List.all_takeWhile⟩

theorem trimStart_append (blank : before.all isBlank) (rest : List Char) :
    trimStart (before ++ rest) = trimStart rest :=
  List.dropWhile_append_of_pos fun _ member => List.all_eq_true.mp blank _ member

theorem trimStart_of_solid (solid : ∀ character ∈ text, isBlank character = false) :
    trimStart text = text := by
  cases text with
  | nil => rfl
  | cons first rest => exact List.dropWhile_cons_of_neg (by simp [solid])

theorem trimStart_eq_nil_iff : trimStart text = [] ↔ text.all isBlank := by
  rw [trimStart, List.dropWhile_eq_nil_iff, List.all_eq_true]

/-- What is removed at the ends is blank. -/
theorem exists_trim (text : List Char) :
    ∃ before after, text = before ++ trim text ++ after ∧ before.all isBlank ∧
      after.all isBlank := by
  obtain ⟨before, isText, blankBefore⟩ := exists_trimStart text
  obtain ⟨after, isReverse, blankAfter⟩ := exists_trimStart (trimStart text).reverse
  refine ⟨before, after.reverse, ?_, blankBefore, by rwa [List.all_reverse]⟩
  rw [List.append_assoc, trim, trimEnd, ← List.reverse_append, ← isReverse, List.reverse_reverse,
    ← isText]

/-- The ends are removed as far as they are blank. -/
theorem trim_append (blankBefore : before.all isBlank) (blankAfter : after.all isBlank)
    (solid : ∀ character ∈ core, isBlank character = false) :
    trim (before ++ core ++ after) = core := by
  have reversed : ∀ character ∈ core.reverse, isBlank character = false := by
    simpa using solid
  rw [trim, List.append_assoc, trimStart_append blankBefore, trimEnd]
  cases core with
  | nil =>
      rw [List.nil_append, trimStart_eq_nil_iff.mpr blankAfter]
      rfl
  | cons first rest =>
      have stays : trimStart (first :: rest ++ after) = first :: rest ++ after :=
        List.dropWhile_cons_of_neg (by simp [solid])
      have blankReverse : after.reverse.all isBlank := by rwa [List.all_reverse]
      rw [stays, List.reverse_append, trimStart_append blankReverse,
        trimStart_of_solid reversed, List.reverse_reverse]

theorem trim_eq_nil_iff : trim text = [] ↔ text.all isBlank := by
  constructor
  · intro isNil
    obtain ⟨before, after, isText, blankBefore, blankAfter⟩ := exists_trim text
    rw [isText, isNil, List.append_nil, List.all_append, blankBefore, blankAfter]
    rfl
  · intro blank
    have trimmed : trim (text ++ [] ++ []) = [] :=
      trim_append blank List.all_nil (List.forall_mem_nil _)
    rwa [List.append_nil, List.append_nil] at trimmed

end Phrasebook.Text
