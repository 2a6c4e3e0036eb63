/-
This file says what the names of generated items keep of the names that they are derived from, and
when they are identifiers. Both forms differ from a name in underscores and the case of letters. The
laws of upper and lower case are those of the library, which only the whole of it brings in.
-/

import Mathlib
import Phrasebook.Proofs.Text.Identifier

namespace Phrasebook.Text

/-- A text without underscores and in lower case. -/
def caseless (text : String) : String :=
  String.ofList ((text.toList.filter (· != '_')).map Char.toLower)

section

variable {character : Char} {text : List Char}

theorem toLower_eq_underscore_iff : character.toLower = '_' ↔ character = '_' := by
  by_cases upper : character.isUpper
  · have isLetter : character.toLower.isLower := by
      rw [Char.isLower_toLower_eq_isAlpha, Char.isAlpha, upper, Bool.true_or]
    constructor
    · intro same
      rw [same] at isLetter
      cases isLetter
    · rintro rfl
      cases upper
  · rw [Char.toLower_eq_of_not_isUpper upper]

/-- Letters stay letters in the other case, and other characters stay what they are. -/
theorem continuesName_toLower : continuesName character.toLower = continuesName character := by
  by_cases upper : character.isUpper
  · have isLetter : character.isAlpha := by rw [Char.isAlpha, upper, Bool.true_or]
    simp [continuesName, Char.isAlphanum, isLetter]
  · rw [Char.toLower_eq_of_not_isUpper upper]

theorem continuesName_toUpper : continuesName character.toUpper = continuesName character := by
  rw [← continuesName_toLower, Char.toLower_toUpper_eq_toLower, continuesName_toLower]

theorem startsName_toLower : startsName character.toLower = startsName character := by
  have mark : (character.toLower == '_') = (character == '_') := by
    rw [Bool.eq_iff_iff, beq_iff_eq, beq_iff_eq, toLower_eq_underscore_iff]
  rw [startsName, startsName, Char.isAlpha_toLower_eq_isAlpha, mark]

/-- Joined words have the letters of the text. -/
theorem map_toLower_joinWords (atStart : Bool) :
    (joinWords atStart text).map Char.toLower = (text.filter (· != '_')).map Char.toLower := by
  induction text generalizing atStart with
  | nil => rfl
  | cons character rest inductionHypothesis =>
      rw [joinWords]
      by_cases isMark : character = '_'
      · simp [isMark, inductionHypothesis]
      · cases atStart <;> simp [isMark, inductionHypothesis]

theorem underscore_not_mem_joinWords (atStart : Bool) : '_' ∉ joinWords atStart text := by
  intro member
  have folded : '_' ∈ (joinWords atStart text).map Char.toLower :=
    List.mem_map.mpr ⟨'_', member, rfl⟩
  rw [map_toLower_joinWords, List.mem_map] at folded
  obtain ⟨character, isKept, isMark⟩ := folded
  rw [List.mem_filter, bne_iff_ne] at isKept
  exact isKept.2 (toLower_eq_underscore_iff.mp isMark)

theorem joinWords_false (single : '_' ∉ text) : joinWords false text = text := by
  induction text with
  | nil => rfl
  | cons character rest inductionHypothesis =>
      rw [List.mem_cons, not_or] at single
      obtain ⟨differs, further⟩ := single
      rw [joinWords, if_neg (by simpa using Ne.symm differs), inductionHypothesis further]
      rfl

/-- Joined words start with a letter in upper case or with another character. -/
theorem isLower_of_joinWords {first : Char} {rest : List Char}
    (joined : joinWords true text = first :: rest) : first.isLower = false := by
  induction text with
  | nil => cases joined
  | cons character others inductionHypothesis =>
      rw [joinWords] at joined
      by_cases isMark : character = '_'
      · rw [if_pos (by simpa using isMark)] at joined
        exact inductionHypothesis joined
      · rw [if_neg (by simpa using isMark), if_pos rfl, List.cons.injEq] at joined
        rw [← joined.1, Char.isLower_toUpper_eq_false]

theorem joinWords_joinWords : joinWords true (joinWords true text) = joinWords true text := by
  have single : '_' ∉ joinWords true text := underscore_not_mem_joinWords true
  cases joined : joinWords true text with
  | nil => rfl
  | cons first rest =>
      rw [joined, List.mem_cons, not_or] at single
      obtain ⟨differs, further⟩ := single
      have noLower : ¬first.isLower = true := by
        rw [isLower_of_joinWords joined]
        exact Bool.false_ne_true
      rw [joinWords, if_neg (by simpa using Ne.symm differs), if_pos rfl,
        Char.toUpper_eq_of_not_isLower noLower, joinWords_false further]

/-- Separated words have the letters of the text. -/
theorem filter_separateWords (previous : Option Char) :
    ((separateWords previous text).filter (· != '_')).map Char.toLower =
      (text.filter (· != '_')).map Char.toLower := by
  induction text generalizing previous with
  | nil => rfl
  | cons character rest inductionHypothesis =>
      have separator : (if startsWord previous character then ['_'] else []).filter (· != '_') =
          ([] : List Char) := by
        split <;> rfl
      rw [separateWords, List.filter_append, separator, List.nil_append]
      by_cases isMark : character = '_'
      · simp [isMark, inductionHypothesis]
      · simp [isMark, toLower_eq_underscore_iff, inductionHypothesis]

theorem isUpper_of_mem_separateWords {previous : Option Char}
    (member : character ∈ separateWords previous text) : character.isUpper = false := by
  induction text generalizing previous with
  | nil => cases member
  | cons first rest inductionHypothesis =>
      rw [separateWords, List.mem_append, List.mem_cons] at member
      obtain isSeparator | rfl | further := member
      · have isMark : character = '_' := by
          split at isSeparator
          · exact List.mem_singleton.mp isSeparator
          · cases isSeparator
        rw [isMark]
        rfl
      · exact Char.isUpper_toLower_eq_false first
      · exact inductionHypothesis further

/-- A text without upper-case letters is one word. -/
theorem separateWords_of_lower {previous : Option Char}
    (lower : ∀ character ∈ text, character.isUpper = false) :
    separateWords previous text = text := by
  induction text generalizing previous with
  | nil => rfl
  | cons character rest inductionHypothesis =>
      rw [List.forall_mem_cons] at lower
      obtain ⟨isLower, further⟩ := lower
      have noWord : ¬startsWord previous character = true := by
        rw [startsWord, isLower, Bool.false_and]
        exact Bool.false_ne_true
      have noUpper : ¬character.isUpper = true := by
        rw [isLower]
        exact Bool.false_ne_true
      rw [separateWords, if_neg noWord, List.nil_append, Char.toLower_eq_of_not_isUpper noUpper,
        inductionHypothesis further]

theorem all_continuesName_separateWords {previous : Option Char} (all : text.all continuesName) :
    (separateWords previous text).all continuesName := by
  induction text generalizing previous with
  | nil => rfl
  | cons character rest inductionHypothesis =>
      rw [List.all_cons, Bool.and_eq_true] at all
      have separator : (if startsWord previous character then ['_'] else []).all continuesName := by
        split <;> rfl
      rw [separateWords, List.all_append, separator, List.all_cons, continuesName_toLower, all.1,
        inductionHypothesis all.2]
      rfl

theorem all_continuesName_joinWords {atStart : Bool} (all : text.all continuesName) :
    (joinWords atStart text).all continuesName := by
  induction text generalizing atStart with
  | nil => rfl
  | cons character rest inductionHypothesis =>
      rw [List.all_cons, Bool.and_eq_true] at all
      rw [joinWords]
      split
      · exact inductionHypothesis all.2
      · cases atStart <;>
          simp only [List.all_cons, Bool.and_eq_true, if_true, Bool.false_eq_true, if_false,
            continuesName_toUpper, all.1, inductionHypothesis all.2, and_self]

theorem isName_separateWords (named : isName text) : isName (separateWords none text) := by
  cases text with
  | nil => cases named
  | cons first rest =>
      rw [isName, Bool.and_eq_true] at named
      have noWord : ¬startsWord none first = true := by simp [startsWord]
      rw [separateWords, if_neg noWord, List.nil_append, isName, startsName_toLower, named.1,
        all_continuesName_separateWords named.2]
      rfl

/-- Only the lone underscore is separated into a lone underscore. -/
theorem separateWords_eq_underscore (alone : separateWords none text = ['_']) : text = ['_'] := by
  cases text with
  | nil => cases alone
  | cons first rest =>
      have noWord : ¬startsWord none first = true := by simp [startsWord]
      rw [separateWords, if_neg noWord, List.nil_append, List.cons.injEq] at alone
      obtain ⟨isMark, ended⟩ := alone
      cases rest with
      | nil => rw [toLower_eq_underscore_iff.mp isMark]
      | cons second others =>
          rw [separateWords, List.append_eq_nil_iff] at ended
          cases ended.2

end

theorem snakeCase_snakeCase (text : String) : snakeCase (snakeCase text) = snakeCase text := by
  rw [snakeCase, snakeCase, String.toList_ofList]
  congr 1
  exact separateWords_of_lower fun _ member => isUpper_of_mem_separateWords member

theorem upperCamelCase_upperCamelCase (text : String) :
    upperCamelCase (upperCamelCase text) = upperCamelCase text := by
  rw [upperCamelCase, upperCamelCase, String.toList_ofList, joinWords_joinWords]

theorem caseless_snakeCase (text : String) : caseless (snakeCase text) = caseless text := by
  rw [caseless, snakeCase, String.toList_ofList, filter_separateWords, ← caseless]

theorem caseless_upperCamelCase (text : String) :
    caseless (upperCamelCase text) = caseless text := by
  have kept : (joinWords true text.toList).filter (· != '_') = joinWords true text.toList := by
    rw [List.filter_eq_self]
    rintro character member
    rw [bne_iff_ne]
    rintro rfl
    exact underscore_not_mem_joinWords true member
  rw [caseless, upperCamelCase, String.toList_ofList, kept, map_toLower_joinWords, ← caseless]

/-- A derived name that two texts share is that of one text but for underscores and case. -/
theorem caseless_eq_of_shared {first second : String}
    (shared : snakeCase first = snakeCase second ∨ upperCamelCase first = upperCamelCase second) :
    caseless first = caseless second := by
  obtain same | same := shared
  · rw [← caseless_snakeCase first, same, caseless_snakeCase]
  · rw [← caseless_upperCamelCase first, same, caseless_upperCamelCase]

section

variable {name : String}

/-- A name in snake case is an identifier except where it is a keyword. -/
theorem isIdentifier_snakeCase_iff (identifier : isIdentifier name) :
    isIdentifier (snakeCase name) ↔ ¬isKeyword (snakeCase name) := by
  have notBlank : snakeCase name ≠ "_" := by
    intro isBlank
    have alone : separateWords none name.toList = ['_'] := by
      rw [← String.toList_ofList (l := separateWords none name.toList), ← snakeCase, isBlank]
      rfl
    have isAlone : name = "_" := by
      rw [← String.ofList_toList (s := name), separateWords_eq_underscore alone]
    rw [isAlone] at identifier
    contradiction
  have named : isName (snakeCase name).toList := by
    rw [snakeCase, String.toList_ofList]
    exact isName_separateWords (isName_of_isIdentifier identifier)
  rw [isIdentifier, named, bne_iff_ne.mpr notBlank]
  simp

/-- Whether a text starts with a digit. -/
def startsDigit (text : String) : Bool :=
  text.toList.head?.any Char.isDigit

/-- Of the keywords only `Self` starts with an upper-case letter. -/
theorem isKeyword_iff_of_upper {text : String} {first : Char}
    (isFirst : text.toList.head? = some first) (upper : first.isUpper) :
    isKeyword text ↔ text = "Self" := by
  have each : ∀ keyword ∈ keywords, keyword.toList.head?.any Char.isUpper → keyword = "Self" := by
    decide
  constructor
  · intro keyword
    apply each text (by simpa [isKeyword] using keyword)
    rw [isFirst]
    exact upper
  · rintro rfl
    decide

theorem not_isDigit_of_isUpper {character : Char} (upper : character.isUpper) :
    character.isDigit = false := by
  by_contra digit
  rw [Bool.not_eq_false, Char.isDigit_iff_toNat] at digit
  change (decide (65 ≤ character.toNat ∧ character.toNat ≤ 90)) = true at upper
  rw [decide_eq_true_eq] at upper
  exact absurd (Nat.le_trans upper.1 digit.2) (by decide)

/-- Joined words start with an upper-case letter or a digit. -/
theorem first_of_joinWords {text rest : List Char} {first : Char}
    (joined : joinWords true text = first :: rest) (continues : continuesName first) :
    first ≠ '_' ∧ (first.isUpper ∧ first.isDigit = false ∨
      first.isUpper = false ∧ first.isDigit) := by
  have noMark : first ≠ '_' := by
    rintro rfl
    have member : '_' ∈ joinWords true text := by
      rw [joined]
      exact List.mem_cons_self
    exact underscore_not_mem_joinWords true member
  rw [continuesName, Char.isAlphanum, Char.isAlpha, isLower_of_joinWords joined, Bool.or_false,
    Bool.or_eq_true, Bool.or_eq_true, beq_iff_eq, or_iff_left noMark] at continues
  refine ⟨noMark, ?_⟩
  by_cases upper : first.isUpper
  · exact .inl ⟨upper, not_isDigit_of_isUpper upper⟩
  · exact .inr ⟨Bool.eq_false_iff.mpr upper, continues.resolve_left upper⟩

/-- A name in camel case is an identifier except where it is empty, starts with a digit or is
`Self`. -/
theorem isIdentifier_upperCamelCase_iff (identifier : isIdentifier name) :
    isIdentifier (upperCamelCase name) ↔
      ¬(upperCamelCase name = "" ∨ startsDigit (upperCamelCase name) ∨
        upperCamelCase name = "Self") := by
  have all := all_continuesName_of_isName (isName_of_isIdentifier identifier)
  have letters : (upperCamelCase name).toList = joinWords true name.toList := by
    rw [upperCamelCase, String.toList_ofList]
  cases joined : joinWords true name.toList with
  | nil =>
      have isEmpty : upperCamelCase name = "" := by
        rw [upperCamelCase, joined]
      rw [isEmpty]
      decide
  | cons first rest =>
      rw [joined] at letters
      have notEmpty : upperCamelCase name ≠ "" := by
        intro isEmpty
        rw [isEmpty] at letters
        cases letters
      have continues := @all_continuesName_joinWords name.toList true all
      rw [joined, List.all_cons, Bool.and_eq_true] at continues
      obtain ⟨differs, kind⟩ := first_of_joinWords joined continues.1
      have notBlank : upperCamelCase name ≠ "_" := by
        intro isBlank
        rw [isBlank] at letters
        exact differs (List.cons.inj letters).1.symm
      have digit : startsDigit (upperCamelCase name) = first.isDigit := by
        rw [startsDigit, letters]
        rfl
      rw [isIdentifier, letters, isName, continues.2, digit, bne_iff_ne.mpr notBlank]
      obtain ⟨upper, noDigit⟩ | ⟨noUpper, isDigit⟩ := kind
      · have starts : startsName first := by simp [startsName, Char.isAlpha, upper]
        have isFirst : (upperCamelCase name).toList.head? = some first := by
          rw [letters]
          rfl
        simp [starts, noDigit, notEmpty, ← isKeyword_iff_of_upper isFirst upper]
      · have starts : startsName first = false := by
          simp [startsName, Char.isAlpha, noUpper, isLower_of_joinWords joined, differs]
        simp [starts, isDigit]

end

end Phrasebook.Text
