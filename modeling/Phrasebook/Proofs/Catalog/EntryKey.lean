/-
This file says how the key of an entry is read. The main statement is that the keys that are read
are those of a simple grammar, and that the canonical text of a key is read as that key.
-/

import Phrasebook.Proofs.Catalog.Names
import Phrasebook.Proofs.Text.Blank
import Phrasebook.Proofs.Text.Bracketed
import Phrasebook.Proofs.Text.Identifier

namespace Phrasebook

open Text

namespace EntryKey

/-- A parameter with blanks around it. -/
def Padded (item : List Char) (parameter : String) : Prop :=
  ∃ before after, item = before ++ parameter.toList ++ after ∧ before.all isBlank ∧
    after.all isBlank

/-- The texts of a key: its name, with blanks in parentheses, or with its parameters there,
separated by commas. -/
inductive Written : List Char → EntryKey → Prop
  | alone {name : String} : Written name.toList ⟨name, []⟩
  | blank {name : String} {inner : List Char} (blank : inner.all isBlank) :
      Written (name.toList ++ '(' :: inner ++ [')']) ⟨name, []⟩
  | listed {name : String} {items : List (List Char)} {parameters : List String}
      (padded : List.Forall₂ Padded items parameters)
      (identifiers : ∀ parameter ∈ parameters, isIdentifier parameter)
      (distinct : parameters.Nodup) :
      Written (name.toList ++ '(' :: [','].intercalate items ++ [')']) ⟨name, parameters⟩

theorem splitCommas_eq (reversed text : List Char) :
    splitCommas reversed text = (text.splitOn ',').modifyHead (reversed.reverse ++ ·) := by
  induction text generalizing reversed with
  | nil => simp [splitCommas, List.splitOn_nil]
  | cons character rest inductionHypothesis =>
      obtain ⟨part, parts, isSplit⟩ :=
        List.exists_cons_of_ne_nil (List.splitOn_ne_nil ',' rest)
      rw [splitCommas, List.splitOn_cons_eq_if_modifyHead, inductionHypothesis,
        inductionHypothesis, isSplit]
      split <;> simp

/-- A text without reversed characters before it is split at its commas. -/
theorem splitCommas_nil (text : List Char) : splitCommas [] text = text.splitOn ',' := by
  obtain ⟨part, parts, isSplit⟩ := List.exists_cons_of_ne_nil (List.splitOn_ne_nil ',' text)
  rw [splitCommas_eq, isSplit]
  rfl

theorem not_mem_of_isIdentifier {text : String} (identifier : isIdentifier text)
    {character : Char} (stops : continuesName character = false) : character ∉ text.toList :=
  not_mem_of_isName (isName_of_isIdentifier identifier) character stops

theorem solid_of_isIdentifier {text : String} (identifier : isIdentifier text) :
    ∀ character ∈ text.toList, isBlank character = false := by
  intro character member
  by_contra blank
  have ends := not_continuesName_of_isBlank (Bool.not_eq_false _ ▸ blank)
  exact not_mem_of_isIdentifier identifier ends member

/-- Blanks and identifiers hold none of the characters that separate them. -/
theorem Padded.not_mem {item : List Char} {parameter : String} (padded : Padded item parameter)
    (identifier : isIdentifier parameter) {character : Char} (solid : isBlank character = false)
    (stops : continuesName character = false) : character ∉ item := by
  obtain ⟨before, after, rfl, blankBefore, blankAfter⟩ := padded
  have noName := not_mem_of_isIdentifier identifier stops
  simp [not_mem_of_all solid blankBefore, not_mem_of_all solid blankAfter, noName]

theorem Padded.trim_eq {item : List Char} {parameter : String} (padded : Padded item parameter)
    (identifier : isIdentifier parameter) : String.ofList (trim item) = parameter := by
  obtain ⟨before, after, rfl, blankBefore, blankAfter⟩ := padded
  rw [trim_append blankBefore blankAfter (solid_of_isIdentifier identifier),
    String.ofList_toList]

theorem padded_trim (item : List Char) : Padded item (String.ofList (trim item)) := by
  obtain ⟨before, after, isItem, blankBefore, blankAfter⟩ := exists_trim item
  rw [Padded, String.toList_ofList]
  exact ⟨before, after, isItem, blankBefore, blankAfter⟩

section

variable {items : List (List Char)} {parameters : List String}

/-- The items of a list and its commas hold no other character that separates. -/
theorem not_mem_intercalate (padded : List.Forall₂ Padded items parameters)
    (identifiers : ∀ parameter ∈ parameters, isIdentifier parameter) {character : Char}
    (noComma : character ≠ ',') (solid : isBlank character = false)
    (stops : continuesName character = false) : character ∉ [','].intercalate items := by
  intro member
  obtain ⟨item, isItem, inItem⟩ := List.mem_flatten.mp member
  obtain rfl | isPart := Lists.mem_intersperse isItem
  · exact noComma (List.mem_singleton.mp inItem)
  · obtain ⟨parameter, isParameter, isPadded⟩ := Lists.exists_of_mem_left padded isPart
    exact isPadded.not_mem (identifiers parameter isParameter) solid stops inItem

/-- An identifier stands out among blanks. -/
theorem not_blank_of_mem {text : List Char} {parameter : String}
    (identifier : isIdentifier parameter) (inside : parameter.toList ⊆ text) :
    ¬text.all isBlank := by
  intro blank
  have named := (isItemName_of_isIdentifier identifier).named
  cases isText : parameter.toList with
  | nil =>
      rw [isText] at named
      cases named
  | cons first rest =>
      have member : first ∈ parameter.toList := by
        rw [isText]
        exact List.mem_cons_self
      have isBlank := List.all_eq_true.mp blank first (inside member)
      rw [solid_of_isIdentifier identifier first member] at isBlank
      cases isBlank

/-- The parameters between the commas are read back. -/
theorem splitParameters_intercalate (padded : List.Forall₂ Padded items parameters)
    (identifiers : ∀ parameter ∈ parameters, isIdentifier parameter) :
    splitParameters ([','].intercalate items) = parameters := by
  have noComma : ∀ item ∈ items, ',' ∉ item := by
    intro item member
    obtain ⟨parameter, isParameter, isPadded⟩ := Lists.exists_of_mem_left padded member
    exact isPadded.not_mem (identifiers parameter isParameter) (by decide) (by decide)
  have trimmed : items.map (fun item => String.ofList (trim item)) = parameters := by
    rw [← List.forall₂_eq_eq_eq, List.forall₂_map_left_iff]
    refine (Lists.forall₂_imp_of_mem padded.flip ?_).flip
    intro parameter isParameter item isPadded
    exact Padded.trim_eq isPadded (identifiers parameter isParameter)
  cases padded with
  | nil => rfl
  | @cons item parameter items parameters isPadded rest =>
      have notBlank : ¬([','].intercalate (item :: items)).all isBlank := by
        apply not_blank_of_mem (identifiers parameter List.mem_cons_self)
        obtain ⟨before, after, rfl, _, _⟩ := isPadded
        intro character member
        refine List.mem_flatten.mpr ⟨before ++ parameter.toList ++ after, ?_, by simp [member]⟩
        cases items <;> simp
      rw [splitParameters, if_neg notBlank, splitCommas_nil,
        List.splitOn_intercalate ',' noComma (List.cons_ne_nil _ _), trimmed]

end

/-- The parts of a text that is read as parameters. -/
theorem exists_padded {inner : List Char} (notBlank : ¬inner.all isBlank) :
    ∃ items, inner = [','].intercalate items ∧
      List.Forall₂ Padded items (splitParameters inner) := by
  refine ⟨inner.splitOn ',', (List.intercalate_splitOn ',').symm, ?_⟩
  rw [splitParameters, if_neg notBlank, splitCommas_nil, List.forall₂_map_right_iff,
    List.forall₂_same]
  intro item _
  exact padded_trim item

/-- A name with a text in parentheses that has no further marks is taken apart there. -/
theorem split_bracketed {raw name : String} {inner : List Char}
    (isRaw : raw.toList = name.toList ++ '(' :: inner ++ [')']) (identifier : isIdentifier name)
    (noQuote : '"' ∉ inner) (noOpening : '(' ∉ inner) (noClosing : ')' ∉ inner) :
    split raw = .ok ⟨name, splitParameters inner⟩ := by
  have bracketed : Bracketed raw.toList name.toList inner :=
    ⟨isRaw, not_mem_of_isIdentifier identifier (by decide),
      balanced_of_plain noQuote noOpening noClosing⟩
  have plain : ¬(inner.any fun character => character == '(' || character == ')') = true := by
    rw [List.any_eq_true]
    rintro ⟨character, member, isMark⟩
    rw [Bool.or_eq_true, beq_iff_eq, beq_iff_eq] at isMark
    obtain rfl | rfl := isMark
    · exact noOpening member
    · exact noClosing member
  rw [split, splitBracketed_eq_some_iff.mpr bracketed]
  dsimp only
  rw [if_neg plain, String.ofList_toList]

theorem split_of_written {raw : String} {key : EntryKey} (written : Written raw.toList key)
    (identifier : isIdentifier key.name) : split raw = .ok key := by
  generalize isRaw : raw.toList = text at written
  cases written with
  | @alone name =>
      cases String.toList_inj.mp isRaw
      have none := splitBracketed_eq_none_iff.mpr
        ⟨not_mem_of_isIdentifier identifier (by decide),
          not_mem_of_isIdentifier identifier (by decide)⟩
      rw [split, none]
  | @blank name inner blank =>
      rw [split_bracketed isRaw identifier (not_mem_of_all (by decide) blank)
        (not_mem_of_all (by decide) blank) (not_mem_of_all (by decide) blank), splitParameters,
        if_pos blank]
  | listed padded identifiers distinct =>
      rw [split_bracketed isRaw identifier
        (not_mem_intercalate padded identifiers (by decide) (by decide) (by decide))
        (not_mem_intercalate padded identifiers (by decide) (by decide) (by decide))
        (not_mem_intercalate padded identifiers (by decide) (by decide) (by decide)),
        splitParameters_intercalate padded identifiers]

theorem Written.parameters {text : List Char} {key : EntryKey} (written : Written text key) :
    (∀ parameter ∈ key.parameters, isIdentifier parameter) ∧ key.parameters.Nodup := by
  cases written with
  | alone => exact ⟨List.forall_mem_nil _, .nil⟩
  | blank => exact ⟨List.forall_mem_nil _, .nil⟩
  | listed _ identifiers distinct => exact ⟨identifiers, distinct⟩

theorem written_of_split {raw : String} {key : EntryKey} (isSplit : split raw = .ok key)
    (sound : key.fault? = none) : Written raw.toList key := by
  obtain ⟨_, identifiers, distinct⟩ := fault_eq_none_iff.mp sound
  rw [split] at isSplit
  split at isSplit
  · cases isSplit
  · cases isSplit
    exact .alone
  · rename_i name inner isBracketed
    split at isSplit
    · cases isSplit
    · cases isSplit
      have isRaw := (splitBracketed_eq_some_iff.mp isBracketed).isText
      by_cases blank : inner.all isBlank
      · have written : Written ((String.ofList name).toList ++ '(' :: inner ++ [')'])
            ⟨String.ofList name, []⟩ := .blank blank
        rw [String.toList_ofList] at written
        rwa [splitParameters, if_pos blank, isRaw]
      · obtain ⟨items, isInner, padded⟩ := exists_padded blank
        have written : Written
            ((String.ofList name).toList ++ '(' :: [','].intercalate items ++ [')'])
            ⟨String.ofList name, splitParameters inner⟩ := .listed padded identifiers distinct
        rwa [String.toList_ofList, ← isInner, ← isRaw] at written

/-- The canonical text of a key is one of its texts. -/
theorem written_display {key : EntryKey}
    (identifiers : ∀ parameter ∈ key.parameters, isIdentifier parameter)
    (distinct : key.parameters.Nodup) : Written key.display.toList key := by
  obtain ⟨name, parameters⟩ := key
  cases parameters with
  | nil => exact .alone
  | cons first rest =>
      have padded : List.Forall₂ Padded
          (first.toList :: rest.map fun parameter => ' ' :: parameter.toList) (first :: rest) := by
        refine .cons ⟨[], [], by simp, rfl, rfl⟩ ?_
        rw [List.forall₂_map_left_iff, List.forall₂_same]
        intro parameter _
        exact ⟨[' '], [], by simp, by decide, rfl⟩
      have isText : (display ⟨name, first :: rest⟩).toList =
          name.toList ++ '(' :: [','].intercalate
            (first.toList :: rest.map fun parameter => ' ' :: parameter.toList) ++ [')'] := by
        have inhabited : hasParameters ⟨name, first :: rest⟩ = true := rfl
        rw [display, if_pos inhabited]
        simp [String.toList_intercalate, Lists.intercalate_cons, List.flatMap_map]
      rw [isText]
      exact .listed padded identifiers distinct

/-- A key that was read is the only one with its canonical text. -/
theorem split_display {raw : String} {key : EntryKey} (parsed : parse raw = .ok key) :
    split key.display = .ok key := by
  obtain ⟨_, sound⟩ := parse_eq_ok_iff.mp parsed
  obtain ⟨identifier, identifiers, distinct⟩ := fault_eq_none_iff.mp sound
  exact split_of_written (written_display identifiers distinct) identifier

/-- The keys that are read are names, alone or with blanks or distinct parameters between
parentheses, and the canonical text of a key is read as that key. -/
theorem parse_iff_written :
    (∀ raw key, parse raw = .ok key ↔ isIdentifier key.name ∧ Written raw.toList key) ∧
      ∀ raw key, parse raw = .ok key → parse key.display = .ok key := by
  have reads (raw : String) (key : EntryKey) :
      parse raw = .ok key ↔ isIdentifier key.name ∧ Written raw.toList key := by
    rw [parse_eq_ok_iff]
    constructor
    · rintro ⟨isSplit, sound⟩
      exact ⟨(fault_eq_none_iff.mp sound).1, written_of_split isSplit sound⟩
    · rintro ⟨identifier, written⟩
      exact ⟨split_of_written written identifier,
        fault_eq_none_iff.mpr ⟨identifier, written.parameters⟩⟩
  refine ⟨reads, ?_⟩
  intro raw key parsed
  obtain ⟨identifier, written⟩ := (reads raw key).mp parsed
  obtain ⟨identifiers, distinct⟩ := written.parameters
  exact (reads _ _).mpr ⟨identifier, written_display identifiers distinct⟩

/-- Blanks around parameters are lost, and the canonical text has one behind each comma. -/
theorem parse_iff_written_pair :
    parse "pair( first\t,second)" = .ok ⟨"pair", ["first", "second"]⟩ ∧
      isIdentifier "pair" ∧
      Written "pair( first\t,second)".toList ⟨"pair", ["first", "second"]⟩ ∧
      display ⟨"pair", ["first", "second"]⟩ = "pair(first, second)" ∧
      parse "pair(first, second)" = .ok ⟨"pair", ["first", "second"]⟩ := by
  have parsed : parse "pair( first\t,second)" = .ok ⟨"pair", ["first", "second"]⟩ := by
    decide +kernel
  have shown : display ⟨"pair", ["first", "second"]⟩ = "pair(first, second)" := by
    decide +kernel
  obtain ⟨identifier, written⟩ := (parse_iff_written.1 _ _).mp parsed
  have again := parse_iff_written.2 _ _ parsed
  rw [shown] at again
  exact ⟨parsed, identifier, written, shown, again⟩

end EntryKey

end Phrasebook
