/-
This file says what can be wrong with an entry of a document. The main statements are that each
step of a reading fails exactly with the defects of its step.
-/

import Phrasebook.Proofs.Catalog.Acceptance

namespace Phrasebook

open Text Yaml Outcome

/-- The names of the generated items are identifiers. -/
def EntryKey.NamesUsable (key : EntryKey) : Prop :=
  isIdentifier (upperCamelCase key.name) ∧ isIdentifier (snakeCase key.name)

namespace Pair

/-- What is wrong with a pair of an entry: its key is no text, its value is no text, the text
mentions an undeclared name, the key cannot be read, or the code of its language is not valid. -/
inductive WordingDefect (strict : Bool) (rawKey : String) (parameters : List String)
    (pair : Pair) : Defect → Prop
  | key (noText : pair.1.text? = none) :
      WordingDefect strict rawKey parameters pair
        (.malformed (.languageKey rawKey (describe pair.1)))
  | value {raw : String} (isRaw : pair.1.text? = some raw) (noText : scalarText? pair.2 = none) :
      WordingDefect strict rawKey parameters pair
        (.malformed (.wording rawKey raw (describe pair.2)))
  | undeclared {raw text name : String} (isRaw : pair.1.text? = some raw)
      (isText : scalarText? pair.2 = some text) (isStrict : strict = true)
      (first : Template.FirstUndeclared parameters text name) :
      WordingDefect strict rawKey parameters pair (.undeclaredParameter rawKey name)
  | language {raw text : String} {fault : LanguageKeyFault} (isRaw : pair.1.text? = some raw)
      (isText : scalarText? pair.2 = some text)
      (declared : strict = true → Template.Declared parameters text)
      (isFault : LanguageKey.split raw = .error fault) :
      WordingDefect strict rawKey parameters pair (.invalidKey rawKey (.languageKey raw fault))
  | code {raw text : String} {key : LanguageKey} {fault : LanguageFault}
      (isRaw : pair.1.text? = some raw) (isText : scalarText? pair.2 = some text)
      (declared : strict = true → Template.Declared parameters text)
      (isKey : LanguageKey.split raw = .ok key)
      (isFault : Language.fault? key.language = some fault) :
      WordingDefect strict rawKey parameters pair (.invalidLanguage key.language fault)

/-- The key and the pairs of an entry can be read. -/
structure Written (strict : Bool) (raw : String) (key : EntryKey) (pair : Pair) : Prop where
  isKey : EntryKey.parse raw = .ok key
  mapping : pair.2 = .mapping pair.wordings
  wordings : ∀ wording ∈ pair.wordings, ∀ defect,
    ¬WordingDefect strict raw key.parameters wording defect

/-- No text is missing in the default language or beside a condition. -/
structure Complete (strict : Bool) (default raw : String) (key : EntryKey) (pair : Pair) : Prop
    extends Written strict raw key pair where
  base : default ∈ pair.plainLanguages
  bases : pair.conditionalLanguages ⊆ pair.plainLanguages

/-- What is wrong with the key of an entry, its value, its pairs, or all of them together. -/
inductive DraftDefect (strict : Bool) (default raw : String) (pair : Pair) : Defect → Prop
  | key {fault : KeyFault} (isFault : EntryKey.parse raw = .error (.invalidKey raw fault)) :
      DraftDefect strict default raw pair (.invalidKey raw fault)
  | value {key : EntryKey} (isKey : EntryKey.parse raw = .ok key)
      (noMapping : pair.2 ≠ .mapping pair.wordings) :
      DraftDefect strict default raw pair (.malformed (.entryValue raw (describe pair.2)))
  | wording {key : EntryKey} {defect : Defect} (isKey : EntryKey.parse raw = .ok key)
      (mapping : pair.2 = .mapping pair.wordings)
      (first : FirstFault (fun _ => WordingDefect strict raw key.parameters) pair.wordings
        defect) :
      DraftDefect strict default raw pair defect
  | missing {key : EntryKey} (written : Written strict raw key pair)
      (noBase : default ∉ pair.plainLanguages) :
      DraftDefect strict default raw pair (.missingWording raw)
  | orphan {key : EntryKey} {language : String} (written : Written strict raw key pair)
      (base : default ∈ pair.plainLanguages)
      (first : pair.conditionalLanguages.find? (· ∉ pair.plainLanguages) = some language) :
      DraftDefect strict default raw pair (.orphanConditional raw language)

/-- What is wrong with an entry after others: its key is no text, it cannot be read, or the names
of its generated items are not usable or those of an earlier entry. -/
inductive EntryDefect (strict : Bool) (default : String) (earlier : List Pair) (pair : Pair) :
    Defect → Prop
  | key (noText : pair.1.text? = none) :
      EntryDefect strict default earlier pair (.malformed (.entryKey (describe pair.1)))
  | draft {raw : String} {defect : Defect} (isRaw : pair.1.text? = some raw)
      (isDefect : DraftDefect strict default raw pair defect) :
      EntryDefect strict default earlier pair defect
  | unusable {raw : String} {key : EntryKey} (isRaw : pair.1.text? = some raw)
      (complete : Complete strict default raw key pair) (unusable : ¬key.NamesUsable) :
      EntryDefect strict default earlier pair (.invalidKey raw .unusableName)
  | repeated {raw : String} {key : EntryKey} {other : Pair} (isRaw : pair.1.text? = some raw)
      (complete : Complete strict default raw key pair) (usable : key.NamesUsable)
      (isEarlier : other ∈ earlier) (shared : ¬other.NamesApart pair) :
      EntryDefect strict default earlier pair (.duplicateEntry key.name)

end Pair

/-- A defect that names an entry does so by its raw key, but two entries that share a name are
reported by the name of the later one. -/
def Defect.Blames (defect : Defect) (pair : Pair) : Prop :=
  match defect with
  | .duplicateEntry name =>
      defect.key? = some name ∧ ∃ key, pair.entryKey? = some key ∧ key.name = name
  | _ => ∀ raw, defect.key? = some raw → pair.1.text? = some raw

theorem EntryKey.exists_fault_of_parse {raw : String} {defect : Defect}
    (failed : EntryKey.parse raw = .error defect) : ∃ fault, defect = .invalidKey raw fault := by
  rw [EntryKey.parse] at failed
  split at failed
  · cases failed
    exact ⟨_, rfl⟩
  · split at failed <;> cases failed
    exact ⟨_, rfl⟩

theorem LanguageKey.parse_eq_error_iff {entry raw : String} {defect : Defect} :
    LanguageKey.parse entry raw = .error defect ↔
      ∃ fault, LanguageKey.split raw = .error fault ∧
        defect = .invalidKey entry (.languageKey raw fault) := by
  rw [LanguageKey.parse]
  cases LanguageKey.split raw <;> simp [eq_comm]

theorem Language.check_eq_error_iff {code : String} {defect : Defect} :
    Language.check code = .error defect ↔ ∃ fault,
      Language.fault? code = some fault ∧ defect = .invalidLanguage code fault := by
  rw [Language.check]
  cases Language.fault? code <;> simp [eq_comm]

namespace WrittenText

variable {strict : Bool} {rawKey : String} {parameters : List String} {pair : Pair}

/-- The checks of a pair with a key and a text. -/
theorem ofPair_eq {raw text : String} (isRaw : pair.1.text? = some raw)
    (isText : scalarText? pair.2 = some text) :
    ofPair strict rawKey parameters pair = do
      let template ← Template.read strict rawKey parameters text
      let key ← LanguageKey.parse rawKey raw
      Language.check key.language
      return ⟨key, template⟩ := by
  rw [ofPair, isRaw, isText]

theorem ofPair_eq_error_iff {defect : Defect} :
    ofPair strict rawKey parameters pair = .error defect ↔
      pair.WordingDefect strict rawKey parameters defect := by
  constructor
  · intro failed
    cases isRaw : pair.1.text? with
    | none =>
        rw [ofPair, isRaw] at failed
        cases failed
        exact .key isRaw
    | some raw =>
        cases isText : scalarText? pair.2 with
        | none =>
            rw [ofPair, isRaw, isText] at failed
            cases failed
            exact .value isRaw isText
        | some text =>
            rw [ofPair_eq isRaw isText] at failed
            obtain refused | ⟨template, isTemplate, failed⟩ := bind_eq_error_iff.mp failed
            · obtain ⟨isStrict, name, first, rfl⟩ := Template.read_eq_error_iff.mp refused
              exact .undeclared isRaw isText isStrict first
            have declared : strict = true → Template.Declared parameters text := by
              intro isStrict
              rw [← Template.undeclared_eq_nil_iff_declared]
              exact (Template.read_eq_ok_iff.mp isTemplate).1 isStrict
            obtain refused | ⟨key, isKey, failed⟩ := bind_eq_error_iff.mp failed
            · obtain ⟨fault, isFault, rfl⟩ := LanguageKey.parse_eq_error_iff.mp refused
              exact .language isRaw isText declared isFault
            obtain refused | ⟨_, _, never⟩ := bind_eq_error_iff.mp failed
            · obtain ⟨fault, isFault, rfl⟩ := Language.check_eq_error_iff.mp refused
              exact .code isRaw isText declared (LanguageKey.parse_eq_ok_iff.mp isKey) isFault
            · cases never
  · intro isDefect
    have readable {text : String} (declared : strict = true → Template.Declared parameters text) :
        Template.read strict rawKey parameters text = .ok (Template.ofText parameters text) := by
      rw [Template.read_eq_ok_iff, Template.undeclared_eq_nil_iff_declared]
      exact ⟨declared, rfl⟩
    cases isDefect with
    | key noText =>
        rw [ofPair, noText]
        rfl
    | value isRaw noText =>
        rw [ofPair, isRaw, noText]
        rfl
    | undeclared isRaw isText isStrict first =>
        rw [ofPair_eq isRaw isText, bind_eq_error_iff, Template.read_eq_error_iff]
        exact .inl ⟨isStrict, _, first, rfl⟩
    | language isRaw isText declared isFault =>
        rw [ofPair_eq isRaw isText]
        refine bind_eq_error_iff.mpr (.inr ⟨_, readable declared, ?_⟩)
        exact bind_eq_error_iff.mpr (.inl (LanguageKey.parse_eq_error_iff.mpr ⟨_, isFault, rfl⟩))
    | code isRaw isText declared isKey isFault =>
        rw [ofPair_eq isRaw isText]
        refine bind_eq_error_iff.mpr (.inr ⟨_, readable declared, ?_⟩)
        refine bind_eq_error_iff.mpr (.inr ⟨_, LanguageKey.parse_eq_ok_iff.mpr isKey, ?_⟩)
        exact bind_eq_error_iff.mpr (.inl (Language.check_eq_error_iff.mpr ⟨_, isFault, rfl⟩))

/-- A pair without a defect is a wording. -/
theorem exists_reads_iff_sound :
    (∃ written, Reads strict parameters pair written) ↔
      ∀ defect, ¬pair.WordingDefect strict rawKey parameters defect := by
  have readsPair (written : WrittenText) :
      ofPair strict rawKey parameters pair = .ok written ↔ Reads strict parameters pair written :=
    ofPair_eq_ok_iff
  simp only [← readsPair, ← ofPair_eq_error_iff]
  exact exists_eq_ok_iff

/-- Reading the pairs of an entry fails with the defect of the first one that has any. -/
theorem mapM_ofPair_eq_error_iff {pairs : List Pair} {defect : Defect} :
    pairs.mapM (ofPair strict rawKey parameters) = .error defect ↔
      FirstFault (fun _ => Pair.WordingDefect strict rawKey parameters) pairs defect := by
  simp only [mapM_eq_error_iff, ofPair_eq_error_iff]

theorem mapM_ofPair_eq_ok_iff {pairs : List Pair} {wordings : List WrittenText} :
    pairs.mapM (ofPair strict rawKey parameters) = .ok wordings ↔
      List.Forall₂ (Reads strict parameters) pairs wordings := by
  simp only [mapM_eq_ok_iff, ofPair_eq_ok_iff]

end WrittenText

namespace Draft

variable {strict : Bool} {default raw : String} {key : EntryKey} {pair : Pair} {defect : Defect}

theorem checkComplete_eq_error_iff {parameters : List String} {draft : Draft}
    (wordings : List.Forall₂ (WrittenText.Reads strict parameters) pair.wordings draft.wordings) :
    draft.checkComplete default = .error defect ↔
      (default ∉ pair.plainLanguages ∧ defect = .missingWording draft.rawKey) ∨
      default ∈ pair.plainLanguages ∧ ∃ language,
        pair.conditionalLanguages.find? (· ∉ pair.plainLanguages) = some language ∧
          defect = .orphanConditional draft.rawKey language := by
  have orphan : pair.conditionalLanguages.find? (· ∉ pair.plainLanguages) =
      (draft.conditionals.find? fun conditional => (draft.base? conditional.1).isNone).map
        Prod.fst := by
    rw [← conditionalLanguages_eq wordings, List.find?_map]
    congr 2
    funext conditional
    simp only [Function.comp_apply, ← isSome_base_iff wordings]
    cases draft.base? conditional.1 <;> rfl
  rw [checkComplete, ← isSome_base_iff wordings, orphan]
  cases draft.base? default with
  | none => simp [eq_comm]
  | some base =>
      cases draft.conditionals.find? fun conditional => (draft.base? conditional.1).isNone with
      | none => simp
      | some conditional => simp [eq_comm]

/-- The checks of an entry with a key and pairs. -/
theorem ofPair_eq (isKey : EntryKey.parse raw = .ok key)
    (mapping : pair.2 = .mapping pair.wordings) :
    ofPair strict default raw pair.2 = do
      let wordings ← pair.wordings.mapM (WrittenText.ofPair strict raw key.parameters)
      let draft : Draft := ⟨key, raw, wordings⟩
      draft.checkComplete default
      return draft := by
  rw [ofPair, isKey, mapping]
  rfl

theorem exists_reads_of_written (written : pair.Written strict raw key) :
    ∃ wordings, List.Forall₂ (WrittenText.Reads strict key.parameters) pair.wordings wordings := by
  apply Lists.exists_forall₂
  intro wording member
  exact WrittenText.exists_reads_iff_sound.mpr (written.wordings wording member)

theorem written_of_reads (isKey : EntryKey.parse raw = .ok key)
    (mapping : pair.2 = .mapping pair.wordings) {wordings : List WrittenText}
    (reads : List.Forall₂ (WrittenText.Reads strict key.parameters) pair.wordings wordings) :
    pair.Written strict raw key := by
  refine ⟨isKey, mapping, ?_⟩
  intro wording member
  obtain ⟨written, _, isWritten⟩ := Lists.exists_of_mem_left reads member
  exact WrittenText.exists_reads_iff_sound.mp ⟨written, isWritten⟩

theorem ofPair_of_not_mapping (isKey : EntryKey.parse raw = .ok key)
    (noMapping : pair.2 ≠ .mapping pair.wordings) :
    ofPair strict default raw pair.2 =
      .error (.malformed (.entryValue raw (describe pair.2))) := by
  rw [ofPair, isKey]
  cases isValue : pair.2 with
  | mapping pairs =>
      rw [Pair.wordings, isValue] at noMapping
      exact absurd rfl noMapping
  | _ => rfl

/-- What the last check finds in an entry that can be read. -/
theorem ofPair_of_written (written : pair.Written strict raw key)
    (incomplete : ∀ draft : Draft,
      List.Forall₂ (WrittenText.Reads strict key.parameters) pair.wordings draft.wordings →
        draft.rawKey = raw → draft.checkComplete default = .error defect) :
    ofPair strict default raw pair.2 = .error defect := by
  obtain ⟨wordings, reads⟩ := exists_reads_of_written written
  rw [ofPair_eq written.isKey written.mapping]
  refine bind_eq_error_iff.mpr (.inr ⟨_, WrittenText.mapM_ofPair_eq_ok_iff.mpr reads, ?_⟩)
  exact bind_eq_error_iff.mpr (.inl (incomplete ⟨key, raw, wordings⟩ reads rfl))

theorem ofPair_eq_error_iff :
    ofPair strict default raw pair.2 = .error defect ↔
      pair.DraftDefect strict default raw defect := by
  constructor
  · intro failed
    cases isParsed : EntryKey.parse raw with
    | error found =>
        rw [ofPair, isParsed] at failed
        cases failed
        obtain ⟨fault, rfl⟩ := EntryKey.exists_fault_of_parse isParsed
        exact .key isParsed
    | ok key =>
        by_cases mapping : pair.2 = .mapping pair.wordings
        · rw [ofPair_eq isParsed mapping] at failed
          obtain refused | ⟨wordings, isRead, failed⟩ := bind_eq_error_iff.mp failed
          · exact .wording isParsed mapping (WrittenText.mapM_ofPair_eq_error_iff.mp refused)
          have reads := WrittenText.mapM_ofPair_eq_ok_iff.mp isRead
          have written := written_of_reads isParsed mapping reads
          obtain refused | ⟨_, _, never⟩ := bind_eq_error_iff.mp failed
          · obtain ⟨missing, rfl⟩ | ⟨base, language, first, rfl⟩ :=
              (checkComplete_eq_error_iff reads).mp refused
            · exact .missing written missing
            · exact .orphan written base first
          · cases never
        · cases (ofPair_of_not_mapping isParsed mapping).symm.trans failed
          exact .value isParsed mapping
  · intro isDefect
    cases isDefect with
    | key isFault =>
        rw [ofPair, isFault]
        rfl
    | value isKey noMapping => exact ofPair_of_not_mapping isKey noMapping
    | wording isKey mapping first =>
        rw [ofPair_eq isKey mapping]
        exact bind_eq_error_iff.mpr (.inl (WrittenText.mapM_ofPair_eq_error_iff.mpr first))
    | missing written noBase =>
        apply ofPair_of_written written
        intro draft reads isRaw
        rw [checkComplete_eq_error_iff reads, isRaw]
        exact .inl ⟨noBase, rfl⟩
    | orphan written base first =>
        apply ofPair_of_written written
        intro draft reads isRaw
        rw [checkComplete_eq_error_iff reads, isRaw]
        exact .inr ⟨base, _, first, rfl⟩

theorem Reads.isComplete {draft : Draft} (reads : Reads strict default pair draft) :
    pair.Complete strict default draft.rawKey draft.key :=
  ⟨written_of_reads reads.key reads.mapping reads.wordings, reads.base, reads.bases⟩

theorem exists_reads_of_complete (isRaw : pair.1.text? = some raw)
    (complete : pair.Complete strict default raw key) :
    ∃ draft, Reads strict default pair draft ∧ draft.key = key ∧ draft.rawKey = raw := by
  obtain ⟨wordings, reads⟩ := exists_reads_of_written complete.toWritten
  exact ⟨⟨key, raw, wordings⟩, ⟨isRaw, complete.isKey, complete.mapping, reads, complete.base,
    complete.bases⟩, rfl, rfl⟩

theorem checkNames_eq_error_iff {seen : List Draft} {draft : Draft} :
    checkNames seen draft = .error defect ↔
      (¬draft.NamesUsable ∧ defect = .invalidKey draft.rawKey .unusableName) ∨
      draft.NamesUsable ∧ (∃ earlier ∈ seen, ¬earlier.NamesApart draft) ∧
        defect = .duplicateEntry draft.key.name := by
  have shares : (seen.any fun earlier => earlier.variantName == draft.variantName ||
      earlier.functionName == draft.functionName) = true ↔
        ∃ earlier ∈ seen, ¬earlier.NamesApart draft := by
    simp only [List.any_eq_true, Bool.or_eq_true, beq_iff_eq, NamesApart, ne_eq, not_and_or,
      not_not]
  rw [checkNames, ← shares]
  split
  · rename_i refused
    have unusable : ¬draft.NamesUsable := by
      intro usable
      simp [usable.1, usable.2] at refused
    rw [Except.error.injEq, eq_comm]
    simp only [unusable, not_false_eq_true, true_and, false_and, or_false]
  · rename_i allowed
    have usable : draft.NamesUsable := by
      simpa [NamesUsable] using allowed
    simp only [usable, not_true_eq_false, false_and, false_or, true_and]
    split
    · rename_i isShared
      rw [Except.error.injEq, eq_comm, isShared]
      simp only [true_and]
    · rename_i apart
      simp [apart]

variable {seen : List Draft} {earlier : List Pair} {draft : Draft}

theorem exists_shared_iff (earlierReads : List.Forall₂ (Reads strict default) earlier seen.reverse)
    (reads : Reads strict default pair draft) :
    (∃ other ∈ seen, ¬other.NamesApart draft) ↔ ∃ other ∈ earlier, ¬other.NamesApart pair := by
  constructor
  · intro shared
    obtain ⟨other, member, isShared⟩ := shared
    obtain ⟨otherPair, isPair, otherReads⟩ :=
      Lists.exists_of_mem_right earlierReads (List.mem_reverse.mpr member)
    exact ⟨otherPair, isPair, (namesApart_iff otherReads reads).not.mp isShared⟩
  · intro shared
    obtain ⟨otherPair, isPair, isShared⟩ := shared
    obtain ⟨other, member, otherReads⟩ := Lists.exists_of_mem_left earlierReads isPair
    exact ⟨other, List.mem_reverse.mp member, (namesApart_iff otherReads reads).not.mpr isShared⟩

/-- The names are all that can be wrong with an entry that reads as a draft. -/
theorem Reads.checkNames_eq_error_iff
    (earlierReads : List.Forall₂ (Reads strict default) earlier seen.reverse)
    (reads : Reads strict default pair draft) :
    checkNames seen draft = .error defect ↔ pair.EntryDefect strict default earlier defect := by
  rw [Draft.checkNames_eq_error_iff, exists_shared_iff earlierReads reads]
  constructor
  · intro refused
    obtain ⟨unusable, rfl⟩ | ⟨usable, ⟨other, isEarlier, shared⟩, rfl⟩ := refused
    · exact .unusable reads.rawKey reads.isComplete unusable
    · exact .repeated reads.rawKey reads.isComplete usable isEarlier shared
  · intro isDefect
    have sameRaw {raw : String} (isRaw : pair.1.text? = some raw) : draft.rawKey = raw :=
      Option.some.inj (reads.rawKey.symm.trans isRaw)
    have sameKey {raw : String} {key : EntryKey} (isRaw : pair.1.text? = some raw)
        (isKey : EntryKey.parse raw = .ok key) : draft.key = key := by
      have isParsed := reads.key
      rw [sameRaw isRaw, isKey] at isParsed
      exact (Except.ok.inj isParsed).symm
    cases isDefect with
    | key noText =>
        rw [reads.rawKey] at noText
        cases noText
    | draft isRaw isDefect =>
        have failed := ofPair_eq_error_iff.mpr isDefect
        rw [(ofPair_eq_ok_iff pair isRaw).mpr reads] at failed
        cases failed
    | unusable isRaw complete unusable =>
        obtain rfl := sameRaw isRaw
        obtain rfl := sameKey isRaw complete.isKey
        exact .inl ⟨unusable, rfl⟩
    | repeated isRaw complete usable isEarlier shared =>
        obtain rfl := sameKey isRaw complete.isKey
        exact .inr ⟨usable, ⟨_, isEarlier, shared⟩, rfl⟩

theorem Reads.checkNames_eq_ok_iff_sound
    (earlierReads : List.Forall₂ (Reads strict default) earlier seen.reverse)
    (reads : Reads strict default pair draft) :
    checkNames seen draft = .ok () ↔ ∀ defect, ¬pair.EntryDefect strict default earlier defect := by
  simp only [← reads.checkNames_eq_error_iff earlierReads]
  cases checkNames seen draft <;> simp

theorem exists_reads_of_sound (isRaw : pair.1.text? = some raw)
    (sound : ∀ defect, ¬pair.EntryDefect strict default earlier defect) :
    ∃ draft, Reads strict default pair draft := by
  simp only [← ofPair_eq_ok_iff pair isRaw]
  apply exists_eq_ok_iff.mpr
  intro defect failed
  exact sound defect (.draft isRaw (ofPair_eq_error_iff.mp failed))

end Draft

namespace Pair

variable {strict : Bool} {default raw : String} {earlier : List Pair} {pair : Pair}
  {defect : Defect}

/-- Nothing else is wrong with an entry whose key is no text. -/
theorem entryDefect_of_noText_iff (noText : pair.1.text? = none) :
    pair.EntryDefect strict default earlier defect ↔
      defect = .malformed (.entryKey (describe pair.1)) := by
  constructor
  · intro isDefect
    cases isDefect with
    | key _ => rfl
    | draft isRaw _ | unusable isRaw _ _ | repeated isRaw _ _ _ _ =>
        rw [noText] at isRaw
        cases isRaw
  · rintro rfl
    exact .key noText

/-- A defective entry that reads as a draft is so for its names. -/
theorem EntryDefect.draftDefect (isDefect : pair.EntryDefect strict default earlier defect)
    (isRaw : pair.1.text? = some raw) :
    pair.DraftDefect strict default raw defect ∨
      ∃ draft, Draft.Reads strict default pair draft := by
  cases isDefect with
  | key noText =>
      rw [isRaw] at noText
      cases noText
  | draft isText isDefect =>
      obtain rfl := Option.some.inj (isRaw.symm.trans isText)
      exact .inl isDefect
  | unusable isText complete _ | repeated isText complete _ _ _ =>
      obtain ⟨draft, reads, _⟩ := Draft.exists_reads_of_complete isText complete
      exact .inr ⟨draft, reads⟩

theorem Complete.entryKey {key : EntryKey} (complete : pair.Complete strict default raw key)
    (isRaw : pair.1.text? = some raw) : pair.entryKey? = some key := by
  rw [entryKey?, isRaw, Option.bind_some, complete.isKey]
  rfl

theorem WordingDefect.blames {parameters : List String} {wording : Pair}
    (isDefect : wording.WordingDefect strict raw parameters defect)
    (isRaw : pair.1.text? = some raw) : defect.Blames pair := by
  cases isDefect <;> simp [Defect.Blames, Defect.key?, isRaw]

theorem DraftDefect.blames (isDefect : pair.DraftDefect strict default raw defect)
    (isRaw : pair.1.text? = some raw) : defect.Blames pair := by
  cases isDefect with
  | wording isKey mapping first =>
      obtain ⟨_, wording, _, _, _, isDefect⟩ := first
      exact isDefect.blames isRaw
  | _ => simp [Defect.Blames, Defect.key?, isRaw]

theorem EntryDefect.blames (isDefect : pair.EntryDefect strict default earlier defect) :
    defect.Blames pair := by
  cases isDefect with
  | key noText => simp [Defect.Blames, Defect.key?]
  | draft isRaw isDefect => exact isDefect.blames isRaw
  | unusable isRaw complete _ => simp [Defect.Blames, Defect.key?, isRaw]
  | repeated isRaw complete _ _ _ => exact ⟨rfl, _, complete.entryKey isRaw, rfl⟩

end Pair

end Phrasebook
