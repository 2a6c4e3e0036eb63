/-
This file says which characters names have, and which names the generated language allows.
-/

import Mathlib.Tactic.ByContra
import Phrasebook.Text.Blank
import Phrasebook.Text.Identifier

namespace Phrasebook.Text

/-- Names have letters, digits and underscores of ASCII only. -/
theorem toNat_of_continuesName {character : Char} (continues : continuesName character) :
    (48 ≤ character.toNat ∧ character.toNat ≤ 57) ∨ (65 ≤ character.toNat ∧ character.toNat ≤ 90) ∨
      character.toNat = 95 ∨ (97 ≤ character.toNat ∧ character.toNat ≤ 122) := by
  change (((decide (65 ≤ character.toNat ∧ character.toNat ≤ 90) ||
    (decide (97 ≤ character.toNat) && decide (character.toNat ≤ 122))) ||
      (decide (48 ≤ character.toNat) && decide (character.toNat ≤ 57))) ||
        character == '_') = true at continues
  simp only [Bool.or_eq_true, Bool.and_eq_true, decide_eq_true_eq, beq_iff_eq] at continues
  rcases continues with ((upper | lower) | digit) | rfl
  · exact .inr (.inl upper)
  · exact .inr (.inr (.inr lower))
  · exact .inl digit
  · exact .inr (.inr (.inl rfl))

/-- A letter of ASCII or an underscore. -/
def FirstOfName (character : Char) : Prop :=
  'a' ≤ character ∧ character ≤ 'z' ∨ 'A' ≤ character ∧ character ≤ 'Z' ∨ character = '_'

/-- A letter or an underscore, and then letters, digits and underscores. -/
inductive FormsName : List Char → Prop where
  | name {first : Char} {rest : List Char} (starts : FirstOfName first)
      (continues : ∀ character ∈ rest, FirstOfName character ∨ '0' ≤ character ∧ character ≤ '9') :
      FormsName (first :: rest)

theorem startsName_iff {character : Char} : startsName character ↔ FirstOfName character := by
  change ((decide ('A' ≤ character ∧ character ≤ 'Z') ||
    (decide ('a' ≤ character) && decide (character ≤ 'z'))) || character == '_') = true ↔ _
  simp only [Bool.or_eq_true, Bool.and_eq_true, decide_eq_true_eq, beq_iff_eq]
  rw [FirstOfName, or_comm (a := 'A' ≤ character ∧ _), or_assoc]

theorem continuesName_iff {character : Char} :
    continuesName character ↔ FirstOfName character ∨ '0' ≤ character ∧ character ≤ '9' := by
  have digit : character.isDigit ↔ '0' ≤ character ∧ character ≤ '9' := by
    simp [Char.isDigit, Char.le_def]
  rw [← startsName_iff, ← digit, continuesName, startsName, Bool.or_eq_true, Bool.or_eq_true,
    Char.isAlphanum, Bool.or_eq_true, or_right_comm]

theorem isName_iff {name : List Char} : isName name ↔ FormsName name := by
  constructor
  · intro named
    cases name with
    | nil => cases named
    | cons first rest =>
        rw [isName, Bool.and_eq_true, List.all_eq_true] at named
        exact .name (startsName_iff.mp named.1) fun character member =>
          continuesName_iff.mp (named.2 character member)
  · rintro ⟨starts, continues⟩
    rw [isName, Bool.and_eq_true, List.all_eq_true]
    exact ⟨startsName_iff.mpr starts, fun character member =>
      continuesName_iff.mpr (continues character member)⟩

/-- A blank is no part of a name. -/
theorem not_continuesName_of_isBlank {character : Char} (blank : isBlank character) :
    continuesName character = false := by
  by_contra continues
  have range := toNat_of_continuesName (Bool.not_eq_false _ ▸ continues)
  simp only [isBlank, Bool.or_eq_true, Bool.and_eq_true, decide_eq_true_eq, beq_iff_eq] at blank
  omega

theorem continuesName_of_startsName {character : Char} (starts : startsName character) :
    continuesName character := by
  rw [startsName, Bool.or_eq_true] at starts
  rw [continuesName, Bool.or_eq_true, Char.isAlphanum, Bool.or_eq_true]
  exact starts.imp_left .inl

theorem all_continuesName_of_isName {name : List Char} (named : isName name) :
    name.all continuesName := by
  cases name with
  | nil => rfl
  | cons first rest =>
      rw [isName, Bool.and_eq_true] at named
      rw [List.all_cons, Bool.and_eq_true]
      exact ⟨continuesName_of_startsName named.1, named.2⟩

/-- A character that ends a name does not stand in it. -/
theorem not_mem_of_isName {name : List Char} (named : isName name) (character : Char)
    (stops : continuesName character = false) : character ∉ name := by
  intro member
  have continues := List.all_eq_true.mp (all_continuesName_of_isName named) character member
  simp [stops] at continues

theorem isName_of_isIdentifier {text : String} (identifier : isIdentifier text) :
    isName text.toList := by
  rw [isIdentifier, Bool.and_eq_true, Bool.and_eq_true] at identifier
  exact identifier.1.1

/-- The words that the generated language uses itself. -/
def strictKeywords : List String :=
  ["as", "async", "await", "break", "const", "continue", "crate", "dyn", "else", "enum", "extern",
    "false", "fn", "for", "if", "impl", "in", "let", "loop", "match", "mod", "move", "mut", "pub",
    "ref", "return", "self", "Self", "static", "struct", "super", "trait", "true", "type",
    "unsafe", "use", "where", "while"]

/-- The words that the generated language keeps for later. -/
def reservedKeywords : List String :=
  ["abstract", "become", "box", "do", "final", "gen", "macro", "override", "priv", "try",
    "typeof", "unsized", "virtual", "yield"]

/-- A name that the generated language allows for an item, a field or a parameter. -/
structure IsItemName (name : String) : Prop where
  named : FormsName name.toList
  notBlank : name ≠ "_"
  free : name ∉ strictKeywords ∧ name ∉ reservedKeywords

theorem isItemName_of_isIdentifier {text : String} (identifier : isIdentifier text) :
    IsItemName text := by
  rw [isIdentifier, Bool.and_eq_true, Bool.and_eq_true, bne_iff_ne, Bool.not_eq_true',
    isKeyword] at identifier
  obtain ⟨⟨named, notBlank⟩, isFree⟩ := identifier
  have noKeyword : text ∉ keywords := by simpa using isFree
  have strict : strictKeywords ⊆ keywords := by decide
  have reserved : reservedKeywords ⊆ keywords := by decide
  exact ⟨isName_iff.mp named, notBlank, fun member => noKeyword (strict member),
    fun member => noKeyword (reserved member)⟩

end Phrasebook.Text
