/-
This file says which documents a catalog is read from. The main statement is that reading
succeeds exactly where every pair is acceptable by itself and the generated names differ, in
whatever order the pairs stand.
-/

import Phrasebook.Proofs.Catalog.Content
import Phrasebook.Proofs.Catalog.Mention
import Phrasebook.Proofs.Yaml.Keys

namespace Phrasebook

open Text Yaml

namespace Pair

/-- What a pair of an entry must be. A strict reading wants every name in parentheses to be a
parameter. -/
def AcceptableWording (strict : Bool) (rawKey : String) (parameters : List String)
    (pair : Pair) : Prop :=
  ∃ raw text key, pair.1.text? = some raw ∧ scalarText? pair.2 = some text ∧
    LanguageKey.parse rawKey raw = .ok key ∧ Language.check key.language = .ok () ∧
    (strict = true → ∀ name ∈ Template.references text.toList, name ∈ parameters)

/-- What an entry must be by itself. -/
def AcceptableEntry (strict : Bool) (default : String) (pair : Pair) : Prop :=
  ∃ raw key, pair.1.text? = some raw ∧ EntryKey.parse raw = .ok key ∧
    pair.2 = .mapping pair.wordings ∧
    (∀ wording ∈ pair.wordings, AcceptableWording strict raw key.parameters wording) ∧
    default ∈ pair.plainLanguages ∧ pair.conditionalLanguages ⊆ pair.plainLanguages ∧
    isIdentifier (upperCamelCase key.name) ∧ isIdentifier (snakeCase key.name)

end Pair

theorem WrittenText.exists_reads_iff {strict : Bool} {rawKey : String}
    {parameters : List String} {pair : Pair} :
    (∃ written, Reads strict parameters pair written) ↔
      pair.AcceptableWording strict rawKey parameters := by
  simp only [Reads, Pair.AcceptableWording, Pair.wording?, LanguageKey.parse_eq_ok_iff,
    Template.undeclared_eq_nil_iff]
  constructor
  · intro read
    obtain ⟨written, text, isWording, same, declared, checked⟩ := read
    split at isWording
    · rename_i raw found isRaw isText
      obtain ⟨key, isKey, both⟩ := Option.map_eq_some_iff.mp isWording
      obtain ⟨sameKey, sameText⟩ := Prod.mk.inj both
      subst sameText
      subst sameKey
      have isSplit : LanguageKey.split raw = .ok written.key := by
        cases isResult : LanguageKey.split raw with
        | error fault => simp [isResult, Except.toOption] at isKey
        | ok result => simpa [isResult, Except.toOption] using isKey
      exact ⟨raw, found, written.key, isRaw, isText, isSplit, checked, declared⟩
    · cases isWording
  · intro acceptable
    obtain ⟨raw, text, key, isRaw, isText, isKey, checked, declared⟩ := acceptable
    refine ⟨⟨key, Template.ofText parameters text⟩, text, ?_, rfl, declared, checked⟩
    rw [isRaw, isText]
    simp [isKey, Except.toOption]

namespace Draft

variable {strict : Bool} {default : String} {pair : Pair}

/-- A pair reads as a draft with usable names exactly where it is an acceptable entry. -/
theorem exists_reads_iff :
    (∃ draft, Reads strict default pair draft ∧ draft.NamesUsable) ↔
      pair.AcceptableEntry strict default := by
  constructor
  · intro read
    obtain ⟨draft, reads, camel, snake⟩ := read
    have each : ∀ wording ∈ pair.wordings,
        wording.AcceptableWording strict draft.rawKey draft.key.parameters := by
      intro wording member
      obtain ⟨written, _, readsWording⟩ := Lists.exists_of_mem_left reads.wordings member
      exact WrittenText.exists_reads_iff.mp ⟨written, readsWording⟩
    exact ⟨draft.rawKey, draft.key, reads.rawKey, reads.key, reads.mapping, each, reads.base,
      reads.bases, camel, snake⟩
  · intro entry
    obtain ⟨raw, key, isRaw, isKey, isMapping, acceptable, base, bases, camel, snake⟩ := entry
    have each : ∀ wording ∈ pair.wordings,
        ∃ written, WrittenText.Reads strict key.parameters wording written := by
      intro wording member
      exact WrittenText.exists_reads_iff.mpr (acceptable wording member)
    obtain ⟨wordings, related⟩ := Lists.exists_forall₂ each
    exact ⟨⟨key, raw, wordings⟩, ⟨isRaw, isKey, isMapping, related, base, bases⟩, camel, snake⟩

/-- Drafts have different names where their pairs do. -/
theorem namesApart_iff {first second : Draft} {firstPair secondPair : Pair}
    (readsFirst : Reads strict default firstPair first)
    (readsSecond : Reads strict default secondPair second) :
    first.NamesApart second ↔ firstPair.NamesApart secondPair := by
  rw [Pair.NamesApart, readsFirst.entryKey, readsSecond.entryKey]
  constructor
  · intro apart _ _ isFirst isSecond
    cases isFirst
    cases isSecond
    exact apart
  · intro apart
    exact apart _ _ rfl rfl

end Draft

namespace Catalog

/-- What the pairs of a document must be. Only the order of the field and the entries is left
open. -/
structure Acceptable (strict : Bool) (default : String) (pairs : List Pair) : Prop where
  defaultField : (.string defaultField, .string default) ∈ pairs
  defaultValid : Language.check default = .ok ()
  keys : ∀ pair ∈ pairs, ∃ raw, pair.1.text? = some raw
  entries : ∀ pair ∈ entryPairs pairs, pair.AcceptableEntry strict default
  names : (entryPairs pairs).Pairwise Pair.NamesApart
  /-- No two known languages share the name of a method. -/
  methods : ∀ first second, first = default ∨ first ∈ writtenLanguages pairs →
    second = default ∨ second ∈ writtenLanguages pairs →
    Language.methodName first = Language.methodName second → first = second

/-- A loaded mapping has the field of the default language at most once. -/
theorem pairwise_defaultField {pairs : List Pair} (apart : Value.KeysApart (.mapping pairs)) :
    pairs.Pairwise fun first second => ¬(isDefaultField first.1 ∧ isDefaultField second.1) := by
  cases apart with
  | mapping distinct _ _ =>
      apply distinct.imp
      intro first second differs both
      rw [isDefaultField_iff.mp both.1, isDefaultField_iff.mp both.2] at differs
      simp [Value.same] at differs

theorem find_defaultField {pairs : List Pair} {default : String}
    (apart : Value.KeysApart (.mapping pairs))
    (member : (.string defaultField, .string default) ∈ pairs) :
    pairs.find? (fun pair => isDefaultField pair.1) =
      some (.string defaultField, .string default) :=
  Lists.find?_of_pairwise (pairwise_defaultField apart) member (isDefaultField_iff.mpr rfl)

variable {strict : Bool} {pairs : List Pair} {drafts : List Draft} {catalog : Catalog}

/-- Pairs read as drafts with usable names of their own exactly where each is an acceptable entry
and their names differ. -/
theorem exists_drafts_iff {default : String} {entries : List Pair} :
    (∃ drafts, List.Forall₂ (Draft.Reads strict default) entries drafts ∧
      (∀ draft ∈ drafts, draft.NamesUsable) ∧ drafts.Pairwise Draft.NamesApart) ↔
    (∀ pair ∈ entries, pair.AcceptableEntry strict default) ∧
      entries.Pairwise Pair.NamesApart := by
  constructor
  · intro read
    obtain ⟨drafts, each, usable, apart⟩ := read
    constructor
    · intro pair member
      obtain ⟨draft, isDraft, readsDraft⟩ := Lists.exists_of_mem_left each member
      exact Draft.exists_reads_iff.mp ⟨draft, readsDraft, usable draft isDraft⟩
    · apply Lists.pairwise_of_forall₂ each.flip _ apart
      intro first second firstPair secondPair readsFirst readsSecond apart
      exact (Draft.namesApart_iff readsFirst readsSecond).mp apart
  · intro acceptable
    obtain ⟨each, names⟩ := acceptable
    have readable : ∀ pair ∈ entries,
        ∃ draft, Draft.Reads strict default pair draft ∧ draft.NamesUsable := by
      intro pair member
      exact Draft.exists_reads_iff.mpr (each pair member)
    obtain ⟨drafts, related⟩ := Lists.exists_forall₂ readable
    have readsAll := related.imp fun _ _ both => both.1
    refine ⟨drafts, readsAll, ?_, ?_⟩
    · intro draft member
      obtain ⟨pair, _, _, usable⟩ := Lists.exists_of_mem_right related member
      exact usable
    · apply Lists.pairwise_of_forall₂ readsAll _ names
      intro firstPair secondPair first second readsFirst readsSecond apart
      exact (Draft.namesApart_iff readsFirst readsSecond).mpr apart

theorem Reads.acceptable (reads : Reads strict pairs drafts catalog) :
    Acceptable strict catalog.defaultLanguage pairs := by
  obtain ⟨valid, isField⟩ := defaultOf_eq_ok_iff.mp reads.default
  obtain ⟨entries, names⟩ :=
    exists_drafts_iff.mp ⟨drafts, reads.each, reads.usable, reads.apart⟩
  refine ⟨List.mem_of_find?_eq_some isField, valid, ?_, entries, names, ?_⟩
  · intro pair member
    exact Option.isSome_iff_exists.mp (reads.texts pair member)
  · intro first second isFirst isSecond same
    exact List.inj_on_of_nodup_map reads.methods (reads.mem_languages_iff.mpr isFirst)
      (reads.mem_languages_iff.mpr isSecond) same

/-- The drafts of acceptable pairs make a catalog where the field is the one that is found. -/
theorem Acceptable.exists_reads_of_find {default : String}
    (acceptable : Acceptable strict default pairs)
    (isField : pairs.find? (fun pair => isDefaultField pair.1) =
      some (.string Catalog.defaultField, .string default)) :
    ∃ drafts catalog, Reads strict pairs drafts catalog := by
  obtain ⟨drafts, readsAll, usable, apart⟩ :=
    exists_drafts_iff.mpr ⟨acceptable.entries, acceptable.names⟩
  have completed : ∀ draft ∈ drafts,
      ∃ entry, draft.complete (languagesOf default drafts) default = .ok entry := by
    intro draft member
    obtain ⟨pair, _, reads⟩ := Lists.exists_of_mem_right readsAll member
    obtain ⟨base, _, isComplete⟩ := reads.complete_eq (languagesOf default drafts)
    exact ⟨_, isComplete⟩
  obtain ⟨entries, isEntries⟩ := Lists.exists_forall₂ completed
  refine ⟨drafts, ⟨default, languagesOf default drafts, entries⟩, ?_, ?_, readsAll, usable, apart,
    rfl, ?_, isEntries⟩
  · exact defaultOf_eq_ok_iff.mpr ⟨acceptable.defaultValid, isField⟩
  · intro pair member
    exact Option.isSome_iff_exists.mpr (acceptable.keys pair member)
  · apply List.Nodup.map_on _ (nodup_languagesOf _ _)
    intro first isFirst second isSecond same
    rw [mem_languagesOf_iff, writtenLanguages_eq readsAll] at isFirst isSecond
    exact acceptable.methods first second isFirst isSecond same

theorem Acceptable.exists_reads {default : String} (acceptable : Acceptable strict default pairs)
    (apart : Value.KeysApart (.mapping pairs)) :
    ∃ drafts catalog, Reads strict pairs drafts catalog :=
  acceptable.exists_reads_of_find (find_defaultField apart acceptable.defaultField)

end Catalog

end Phrasebook
