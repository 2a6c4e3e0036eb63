/-
This file says what a catalog holds of its document. The main statement is that the entries, the
languages and the wordings of a catalog are those of the pairs that it is read from.
-/

import Mathlib.Data.List.ProdSigma
import Phrasebook.Proofs.Catalog.Reading

namespace Phrasebook

open Text Yaml

/-- What an entry holds of its pair in a catalog with the given languages. -/
structure Entry.Holds (default : String) (languages : List String) (pair : Pair)
    (entry : Entry) : Prop where
  key : pair.entryKey? = some entry.key
  mapping : pair.2 = .mapping pair.wordings
  readable : ∀ wording ∈ pair.wordings, (Pair.wording? wording).isSome
  variantName : entry.variantName = upperCamelCase entry.key.name
  functionName : entry.functionName = snakeCase entry.key.name
  total : ∀ language, (entry.wording? language).isSome ↔ language ∈ languages
  /-- The first plain text of a language is its base text. -/
  written : ∀ language text, pair.plainTexts.lookup language = some text →
    entry.wording? language = some ⟨Template.ofText entry.parameters text,
      pair.conditionalsOf entry.parameters language, false⟩
  /-- A language without a plain text borrows that of the default language. -/
  borrowed : ∀ language ∈ languages, language ∉ pair.plainLanguages →
    ∃ text, pair.plainTexts.lookup default = some text ∧
      entry.wording? language = some ⟨Template.ofText entry.parameters text, [], true⟩

/-- The languages without a text of their own borrow one, and no other languages do. -/
theorem Entry.Holds.isFallback_iff {default language : String} {languages : List String}
    {pair : Pair} {entry : Entry} (holds : entry.Holds default languages pair)
    (member : language ∈ languages) :
    (entry.wording? language).any (·.isFallback) ↔ language ∉ pair.plainLanguages := by
  by_cases isWritten : language ∈ pair.plainLanguages
  · obtain ⟨text, isText⟩ := Lists.exists_lookup isWritten
    simp [holds.written language text isText, isWritten]
  · obtain ⟨text, _, isWording⟩ := holds.borrowed language member isWritten
    simp [isWording, isWritten]

theorem Entry.Holds.default_mem {default : String} {languages : List String} {pair : Pair}
    {entry : Entry} (holds : entry.Holds default languages pair)
    (known : default ∈ languages) : default ∈ pair.plainLanguages := by
  by_contra missing
  obtain ⟨text, isText, _⟩ := holds.borrowed default known missing
  apply missing
  rw [Pair.plainLanguages, ← Lists.isSome_lookup_iff, isText]
  rfl

/-- Templates keep to the parameters of their entry. -/
def Entry.PlaceholdersDeclared (entry : Entry) : Prop :=
  ∀ language wording, entry.wording? language = some wording →
    wording.base.placeholders ⊆ entry.parameters ∧
      ∀ conditional ∈ wording.conditionals,
        conditional.template.placeholders ⊆ entry.parameters

theorem Entry.Holds.placeholdersDeclared {default : String} {languages : List String}
    {pair : Pair} {entry : Entry} (holds : entry.Holds default languages pair) :
    entry.PlaceholdersDeclared := by
  intro language wording isWording
  have member : language ∈ languages := by
    rw [← holds.total, isWording]
    rfl
  by_cases isWritten : language ∈ pair.plainLanguages
  · obtain ⟨text, isText⟩ := Lists.exists_lookup isWritten
    cases isWording.symm.trans (holds.written language text isText)
    refine ⟨Template.placeholders_ofText_subset _ _, ?_⟩
    intro conditional isConditional
    obtain ⟨found, _, same⟩ := List.mem_map.mp isConditional
    rw [← same]
    exact Template.placeholders_ofText_subset _ _
  · obtain ⟨text, _, isBorrowed⟩ := holds.borrowed language member isWritten
    cases isWording.symm.trans isBorrowed
    refine ⟨Template.placeholders_ofText_subset _ _, ?_⟩
    intro conditional isConditional
    exact absurd isConditional List.not_mem_nil

namespace Draft

variable {strict : Bool} {default : String} {pair : Pair} {draft : Draft} {entry : Entry}
  {languages : List String}

/-- Completing a draft keeps what its pair says. -/
theorem Reads.holds (reads : Reads strict default pair draft)
    (known : pair.plainLanguages ⊆ languages)
    (completed : draft.complete languages default = .ok entry) :
    entry.Holds default languages pair := by
  obtain ⟨base, isBase, isComplete⟩ := reads.complete_eq languages
  cases isComplete.symm.trans completed
  have wording_eq {language : String} (member : language ∈ languages) :=
    Lists.lookup_map_graph (fun language => draft.wording base language) member
  refine ⟨reads.entryKey, reads.mapping, ?_, rfl, rfl, ?_, ?_, ?_⟩
  · intro wording member
    obtain ⟨written, _, text, isWording, _⟩ := Lists.exists_of_mem_left reads.wordings member
    rw [isWording]
    rfl
  · intro language
    rw [Entry.wording?, Lists.isSome_lookup_iff, List.map_map]
    simp [Function.comp_def]
  · intro language text isText
    have isWritten : language ∈ pair.plainLanguages := by
      rw [Pair.plainLanguages, ← Lists.isSome_lookup_iff, isText]
      rfl
    rw [Entry.wording?, wording_eq (known isWritten), wording, base_eq reads.wordings,
      isText, conditionalsOf_eq reads.wordings]
    rfl
  · intro language member missing
    rw [base_eq reads.wordings] at isBase
    obtain ⟨text, isText, same⟩ := Option.map_eq_some_iff.mp isBase
    have noText : draft.base? language = none := by
      rw [← Option.not_isSome_iff_eq_none, isSome_base_iff reads.wordings]
      exact missing
    refine ⟨text, isText, ?_⟩
    rw [Entry.wording?, wording_eq member, wording, noText, ← same]
    rfl

end Draft

namespace Catalog

/-- What a catalog holds of the pairs of its document. -/
structure Content (pairs : List Pair) (catalog : Catalog) : Prop where
  defaultField : (.string defaultField, .string catalog.defaultLanguage) ∈ pairs
  entries : List.Forall₂ (Entry.Holds catalog.defaultLanguage catalog.languages)
    (entryPairs pairs) catalog.entries
  languages : catalog.languages = if entryPairs pairs = [] then [catalog.defaultLanguage]
    else (writtenLanguages pairs).eraseDups
  distinct : catalog.languages.Nodup
  defaultKnown : catalog.defaultLanguage ∈ catalog.languages
  placeholders : ∀ entry ∈ catalog.entries, entry.PlaceholdersDeclared
  /-- Entries and languages without a text of their own, in the order of both. -/
  untranslated : catalog.untranslated = (catalog.entries ×ˢ catalog.languages).filter
    fun (entry, language) => (entry.wording? language).any (·.isFallback)
  untranslatedOnce : catalog.untranslated.Nodup
  defaultTranslated : ∀ missing ∈ catalog.untranslated, missing.2 ≠ catalog.defaultLanguage

theorem writtenLanguages_eq {strict : Bool} {default : String} {pairs : List Pair}
    {drafts : List Draft}
    (each : List.Forall₂ (Draft.Reads strict default) (entryPairs pairs) drafts) :
    drafts.flatMap (fun draft => draft.plain.map Prod.fst) = writtenLanguages pairs :=
  Lists.flatMap_of_forall₂ each fun _ _ reads => Draft.plainLanguages_eq reads.wordings

/-- Only a catalog without entries has to add its default language. -/
theorem languagesOf_eq {strict : Bool} {default : String} {pairs : List Pair}
    {drafts : List Draft}
    (each : List.Forall₂ (Draft.Reads strict default) (entryPairs pairs) drafts) :
    languagesOf default drafts = knownLanguages default pairs := by
  rw [languagesOf, writtenLanguages_eq each, knownLanguages]
  cases isEntries : entryPairs pairs with
  | nil => simp [writtenLanguages, isEntries]
  | cons pair rest =>
      have member : pair ∈ entryPairs pairs := by
        rw [isEntries]
        exact List.mem_cons_self
      obtain ⟨draft, _, readsDraft⟩ := Lists.exists_of_mem_left each member
      have isWritten : default ∈ (writtenLanguages pairs).eraseDups :=
        List.mem_eraseDups.mpr (List.mem_flatMap.mpr ⟨pair, member, readsDraft.base⟩)
      simp [isWritten]

namespace Reads

variable {strict : Bool} {pairs : List Pair} {drafts : List Draft} {catalog : Catalog}

theorem languages_eq (reads : Reads strict pairs drafts catalog) :
    catalog.languages = knownLanguages catalog.defaultLanguage pairs := by
  rw [reads.languages, languagesOf_eq reads.each]

theorem mem_languages_iff (reads : Reads strict pairs drafts catalog) {language : String} :
    language ∈ catalog.languages ↔
      language = catalog.defaultLanguage ∨ language ∈ writtenLanguages pairs := by
  rw [reads.languages, mem_languagesOf_iff, writtenLanguages_eq reads.each]

theorem nodup_languages (reads : Reads strict pairs drafts catalog) :
    catalog.languages.Nodup := by
  rw [reads.languages]
  exact nodup_languagesOf _ _

theorem plainLanguages_subset (reads : Reads strict pairs drafts catalog) {pair : Pair}
    (member : pair ∈ entryPairs pairs) : pair.plainLanguages ⊆ catalog.languages := by
  intro language isWritten
  apply reads.mem_languages_iff.mpr
  exact .inr (List.mem_flatMap.mpr ⟨pair, member, isWritten⟩)

theorem holds (reads : Reads strict pairs drafts catalog) :
    List.Forall₂ (Entry.Holds catalog.defaultLanguage catalog.languages) (entryPairs pairs)
      catalog.entries := by
  have each : List.Forall₂ (fun pair draft => ∀ entry,
      draft.complete catalog.languages catalog.defaultLanguage = .ok entry →
        entry.Holds catalog.defaultLanguage catalog.languages pair) (entryPairs pairs) drafts := by
    apply Lists.forall₂_imp_of_mem reads.each
    intro pair member draft readsDraft entry completed
    exact readsDraft.holds (reads.plainLanguages_subset member) completed
  exact Lists.forall₂_trans (fun _ _ entry holds => holds entry) each reads.entries

/-- The generated names of the entries are those of the drafts. -/
theorem pairwise_names (reads : Reads strict pairs drafts catalog) :
    catalog.entries.Pairwise fun first second =>
      first.variantName ≠ second.variantName ∧ first.functionName ≠ second.functionName := by
  have named {draft : Draft} {entry : Entry}
      (completed : draft.complete catalog.languages catalog.defaultLanguage = .ok entry) :
      entry.variantName = draft.variantName ∧ entry.functionName = draft.functionName := by
    rw [Draft.complete] at completed
    split at completed <;> cases completed
    exact ⟨rfl, rfl⟩
  apply Lists.pairwise_of_forall₂ reads.entries _ reads.apart
  intro first second result other isFirst isSecond apart
  rw [(named isFirst).1, (named isFirst).2, (named isSecond).1, (named isSecond).2]
  exact apart

theorem nodup_entries (reads : Reads strict pairs drafts catalog) : catalog.entries.Nodup := by
  apply reads.pairwise_names.imp
  intro first second apart same
  exact apart.1 (congrArg Entry.variantName same)

end Reads

theorem untranslated_eq (catalog : Catalog) :
    catalog.untranslated = (catalog.entries ×ˢ catalog.languages).filter
      fun (entry, language) => (entry.wording? language).any (·.isFallback) := by
  change _ = (catalog.entries.flatMap fun entry => catalog.languages.map (entry, ·)).filter _
  simp only [untranslated, List.filter_flatMap, List.filter_map, Function.comp_def]

theorem mem_untranslated_iff {catalog : Catalog} {entry : Entry} {language : String} :
    (entry, language) ∈ catalog.untranslated ↔ entry ∈ catalog.entries ∧
      language ∈ catalog.languages ∧ (entry.wording? language).any (·.isFallback) := by
  rw [untranslated_eq, List.mem_filter, List.mem_product, and_assoc]

theorem Reads.content {strict : Bool} {pairs : List Pair} {drafts : List Draft}
    {catalog : Catalog} (reads : Reads strict pairs drafts catalog) : Content pairs catalog := by
  have known : catalog.defaultLanguage ∈ catalog.languages :=
    reads.mem_languages_iff.mpr (.inl rfl)
  refine ⟨?_, reads.holds, reads.languages_eq, reads.nodup_languages, known, ?_,
    untranslated_eq catalog, ?_, ?_⟩
  · exact List.mem_of_find?_eq_some (defaultOf_eq_ok_iff.mp reads.default).2
  · intro entry member
    obtain ⟨pair, _, holds⟩ := Lists.exists_of_mem_right reads.holds member
    exact holds.placeholdersDeclared
  · rw [untranslated_eq]
    exact (reads.nodup_entries.product reads.nodup_languages).filter _
  · intro missing member same
    rcases missing with ⟨entry, language⟩
    obtain ⟨isEntry, isKnown, isFallback⟩ := mem_untranslated_iff.mp member
    obtain ⟨pair, _, holds⟩ := Lists.exists_of_mem_right reads.holds isEntry
    apply (holds.isFallback_iff isKnown).mp isFallback
    rw [show language = catalog.defaultLanguage from same]
    exact holds.default_mem known

/-- A parsed catalog holds what its document says: an entry for each key that is not the field
of the default language, the languages in order of appearance, and a wording for each of both. -/
theorem parse_content {strict : Bool} {source : String} {catalog : Catalog}
    (parsed : parse strict source = .ok catalog) :
    ∃ pairs, Value.load source = .ok (.mapping pairs) ∧ Content pairs catalog := by
  obtain ⟨pairs, drafts, loaded, reads⟩ := parse_eq_ok_iff.mp parsed
  exact ⟨pairs, loaded, reads.content⟩

theorem house_content : parse false houseSource = .ok houseCatalog ∧
    ∃ pairs, Value.load houseSource = .ok (.mapping pairs) ∧ Content pairs houseCatalog :=
  ⟨parse_houseSource false, parse_content (parse_houseSource false)⟩

end Catalog

end Phrasebook
