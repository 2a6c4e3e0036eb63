/-
This file compares the catalogs of documents with common entries. The main statements are that a
further entry leaves those before it as they are, and that the order of the pairs decides nothing
but the order of the entries and the languages.
-/

import Mathlib.Data.List.Perm.Basic
import Phrasebook.Proofs.Catalog.Acceptance

namespace Phrasebook

open Text Yaml

namespace Entry

/-- Both entries have one key and the same generated names. -/
structure SameNames (first second : Entry) : Prop where
  key : second.key = first.key
  variantName : second.variantName = first.variantName
  functionName : second.functionName = first.functionName

/-- The later entry is the earlier one in further languages, where it borrows its wordings. -/
structure Extends (default : String) (languages further : List String)
    (earlier later : Entry) : Prop where
  names : earlier.SameNames later
  kept : ∀ language ∈ languages, ∃ wording, earlier.wording? language = some wording ∧
    later.wording? language = some wording
  borrowed : ∀ language ∈ further, language ∉ languages →
    ∃ wording, later.wording? default = some wording ∧
      later.wording? language = some ⟨wording.base, [], true⟩

/-- Both entries say the same in every language. -/
structure Agrees (first second : Entry) : Prop where
  names : first.SameNames second
  wordings : ∀ language, second.wording? language = first.wording? language

namespace Holds

variable {default language : String} {languages further : List String} {pair : Pair}
  {entry other : Entry}

theorem plainLanguages_subset (holds : entry.Holds default languages pair) :
    pair.plainLanguages ⊆ languages := by
  intro language isWritten
  obtain ⟨text, isText⟩ := Lists.exists_lookup isWritten
  rw [← holds.total, holds.written language text isText]
  rfl

theorem wording_eq_none (holds : entry.Holds default languages pair)
    (unknown : language ∉ languages) : entry.wording? language = none := by
  rw [← Option.not_isSome_iff_eq_none, holds.total]
  exact unknown

theorem exists_borrowed (holds : entry.Holds default languages pair)
    (known : language ∈ languages) (missing : language ∉ pair.plainLanguages) :
    ∃ wording, entry.wording? default = some wording ∧
      entry.wording? language = some ⟨wording.base, [], true⟩ := by
  obtain ⟨text, isText, isWording⟩ := holds.borrowed language known missing
  exact ⟨_, holds.written default text isText, isWording⟩

section

variable (holds : entry.Holds default languages pair) (others : other.Holds default further pair)

include holds others

theorem sameNames : entry.SameNames other := by
  have same : other.key = entry.key := Option.some.inj (others.key.symm.trans holds.key)
  refine ⟨same, ?_, ?_⟩
  · rw [others.variantName, same, holds.variantName]
  · rw [others.functionName, same, holds.functionName]

/-- A pair decides the wordings of its entry in every language that a catalog knows. -/
theorem wording_eq (known : language ∈ languages) (isFurther : language ∈ further) :
    other.wording? language = entry.wording? language := by
  have same : other.parameters = entry.parameters :=
    congrArg EntryKey.parameters (holds.sameNames others).key
  by_cases isWritten : language ∈ pair.plainLanguages
  · obtain ⟨text, isText⟩ := Lists.exists_lookup isWritten
    rw [holds.written language text isText, others.written language text isText, same]
  · obtain ⟨text, isText, isWording⟩ := holds.borrowed language known isWritten
    obtain ⟨otherText, isOther, otherWording⟩ := others.borrowed language isFurther isWritten
    cases isText.symm.trans isOther
    rw [isWording, otherWording, same]

theorem extends_of_subset (wider : languages ⊆ further) :
    entry.Extends default languages further other := by
  refine ⟨holds.sameNames others, ?_, ?_⟩
  · intro language known
    obtain ⟨wording, isWording⟩ := Option.isSome_iff_exists.mp ((holds.total language).mpr known)
    refine ⟨wording, isWording, ?_⟩
    rw [holds.wording_eq others known (wider known), isWording]
  · intro language isFurther new
    apply others.exists_borrowed isFurther
    intro isWritten
    exact new (holds.plainLanguages_subset isWritten)

theorem agrees (same : ∀ language, language ∈ languages ↔ language ∈ further) :
    entry.Agrees other := by
  refine ⟨holds.sameNames others, ?_⟩
  intro language
  by_cases known : language ∈ languages
  · exact holds.wording_eq others known ((same language).mp known)
  · have unknown : language ∉ further := fun isFurther => known ((same language).mpr isFurther)
    rw [holds.wording_eq_none known, others.wording_eq_none unknown]

end

end Holds

end Entry

namespace Catalog

variable {strict : Bool} {default : String} {pairs : List Pair} {pair : Pair}

section Append

theorem entryPairs_append_entry (isEntry : pair.isEntry) :
    entryPairs (pairs ++ [pair]) = entryPairs pairs ++ [pair] := by
  rw [entryPairs, List.filter_append, List.filter_cons_of_pos isEntry, List.filter_nil]
  rfl

theorem writtenLanguages_append_entry (isEntry : pair.isEntry) :
    writtenLanguages (pairs ++ [pair]) = writtenLanguages pairs ++ pair.plainLanguages := by
  rw [writtenLanguages, entryPairs_append_entry isEntry, List.flatMap_append,
    List.flatMap_singleton]
  rfl

/-- New languages stand behind those of the entries before. -/
theorem knownLanguages_isPrefix (isEntry : pair.isEntry) (inhabited : entryPairs pairs ≠ []) :
    knownLanguages default pairs <+: knownLanguages default (pairs ++ [pair]) := by
  rw [knownLanguages, if_neg inhabited, knownLanguages, entryPairs_append_entry isEntry,
    if_neg (List.concat_ne_nil _ _), writtenLanguages_append_entry isEntry, List.eraseDups_append]
  exact List.prefix_append _ _

/-- A further entry is never the field of the default language. -/
theorem find_defaultField_append (isEntry : pair.isEntry) :
    (pairs ++ [pair]).find? (fun found => isDefaultField found.1) =
      pairs.find? fun found => isDefaultField found.1 := by
  have isOther : isDefaultField pair.1 = false := by
    rw [← Bool.not_eq_true, isDefaultField_iff]
    intro isField
    simp [Pair.isEntry, isField, Value.text?] at isEntry
  simp [List.find?_append, isOther]

/-- Pairs that are acceptable with a further entry are so without it. -/
theorem Acceptable.of_append (acceptable : Acceptable strict default (pairs ++ [pair]))
    (isEntry : pair.isEntry)
    (isField : (.string Catalog.defaultField, .string default) ∈ pairs) :
    Acceptable strict default pairs := by
  have known {language : String}
      (isKnown : language = default ∨ language ∈ writtenLanguages pairs) :
      language = default ∨ language ∈ writtenLanguages (pairs ++ [pair]) := by
    rw [writtenLanguages_append_entry isEntry]
    exact isKnown.imp_right (List.mem_append_left _)
  have names := acceptable.names
  rw [entryPairs_append_entry isEntry] at names
  refine ⟨isField, acceptable.defaultValid, ?_, ?_, (List.pairwise_append.mp names).1, ?_⟩
  · intro found member
    exact acceptable.keys found (List.mem_append_left _ member)
  · intro found member
    apply acceptable.entries found
    rw [entryPairs_append_entry isEntry]
    exact List.mem_append_left _ member
  · intro first second isFirst isSecond
    exact acceptable.methods first second (known isFirst) (known isSecond)

/-- The catalog of a document with a further entry. -/
structure Extends (pairs : List Pair) (pair : Pair) (catalog extended : Catalog) : Prop where
  defaultLanguage : extended.defaultLanguage = catalog.defaultLanguage
  entries : ∃ earlier last, extended.entries = earlier ++ [last] ∧
    List.Forall₂ (Entry.Extends catalog.defaultLanguage catalog.languages extended.languages)
      catalog.entries earlier ∧
    last.Holds catalog.defaultLanguage extended.languages pair
  languages : entryPairs pairs ≠ [] → catalog.languages <+: extended.languages

theorem Reads.extends_append {drafts further : List Draft} {catalog extended : Catalog}
    (isEntry : pair.isEntry) (reads : Reads strict pairs drafts catalog)
    (readsFurther : Reads strict (pairs ++ [pair]) further extended) :
    Extends pairs pair catalog extended := by
  have isDefault := (defaultOf_eq_ok_iff.mp readsFurther.default).2
  rw [find_defaultField_append isEntry, (defaultOf_eq_ok_iff.mp reads.default).2] at isDefault
  have same : extended.defaultLanguage = catalog.defaultLanguage := by
    simpa using isDefault.symm
  have wider : catalog.languages ⊆ extended.languages := by
    intro language known
    rw [readsFurther.mem_languages_iff, same, writtenLanguages_append_entry isEntry]
    exact (reads.mem_languages_iff.mp known).imp_right (List.mem_append_left _)
  have holdsFurther := readsFurther.holds
  rw [entryPairs_append_entry isEntry, same] at holdsFurther
  obtain ⟨earlier, last, split, holdsEarlier, holdsLast⟩ :=
    Lists.exists_of_forall₂_append_singleton holdsFurther
  refine ⟨same, ⟨earlier, last, split, ?_, holdsLast⟩, ?_⟩
  · apply Lists.forall₂_trans _ reads.holds.flip holdsEarlier
    intro entry _ later holds holdsLater
    exact holds.extends_of_subset holdsLater wider
  · intro inhabited
    rw [reads.languages_eq, readsFurther.languages_eq, same]
    exact knownLanguages_isPrefix isEntry inhabited

/-- Where a document with a further entry is accepted, it is so without this entry. The catalogs
then differ by the entry alone and by the languages that it is the first to have. -/
theorem ofValue_append {extended : Catalog} (isEntry : pair.isEntry)
    (accepted : ofValue strict (.mapping (pairs ++ [pair])) = .ok extended) :
    ∃ catalog, ofValue strict (.mapping pairs) = .ok catalog ∧
      Extends pairs pair catalog extended := by
  obtain ⟨_, further, ⟨⟩, readsFurther⟩ := ofValue_eq_ok_iff.mp accepted
  have isField := (defaultOf_eq_ok_iff.mp readsFurther.default).2
  rw [find_defaultField_append isEntry] at isField
  have acceptable := readsFurther.acceptable.of_append isEntry (List.mem_of_find?_eq_some isField)
  obtain ⟨drafts, catalog, reads⟩ := acceptable.exists_reads_of_find isField
  exact ⟨catalog, ofValue_eq_ok_iff.mpr ⟨pairs, drafts, rfl, reads⟩,
    reads.extends_append isEntry readsFurther⟩

def housePairs : List Pair :=
  [(.string "default", .string "en"),
    (.string "house", .mapping [(.string "en", .string "House")])]

/-- An entry that is the first to have a text in another language. -/
def homePair : Pair :=
  (.string "home", .mapping [(.string "de", .string "Heim"), (.string "en", .string "Home")])

def homeCatalog : Catalog where
  defaultLanguage := "en"
  languages := ["en", "de"]
  entries :=
    [⟨⟨"house", []⟩, "House", "house",
        [("en", ⟨[.literal "House"], [], false⟩), ("de", ⟨[.literal "House"], [], true⟩)]⟩,
      ⟨⟨"home", []⟩, "Home", "home",
        [("en", ⟨[.literal "Home"], [], false⟩), ("de", ⟨[.literal "Heim"], [], false⟩)]⟩]

theorem ofValue_homePairs :
    ofValue false (.mapping (housePairs ++ [homePair])) = .ok homeCatalog := by
  decide +kernel

theorem home_append : homePair.isEntry ∧
    ofValue false (.mapping (housePairs ++ [homePair])) = .ok homeCatalog ∧
    ∃ catalog, ofValue false (.mapping housePairs) = .ok catalog ∧
      Extends housePairs homePair catalog homeCatalog := by
  have isEntry : homePair.isEntry := by
    decide +kernel
  exact ⟨isEntry, ofValue_homePairs, ofValue_append isEntry ofValue_homePairs⟩

end Append

section Order

variable {permuted : List Pair} (perm : pairs.Perm permuted)

include perm

theorem mem_writtenLanguages_perm {language : String} :
    language ∈ writtenLanguages pairs ↔ language ∈ writtenLanguages permuted :=
  ((perm.filter Pair.isEntry).flatMap_right Pair.plainLanguages).mem_iff

/-- Acceptable pairs are so in every order. -/
theorem Acceptable.of_perm (acceptable : Acceptable strict default pairs) :
    Acceptable strict default permuted := by
  have entries : (entryPairs pairs).Perm (entryPairs permuted) := perm.filter Pair.isEntry
  have symmetric {first second : Pair} (apart : first.NamesApart second) :
      second.NamesApart first := by
    intro secondKey firstKey isSecond isFirst
    exact (apart firstKey secondKey isFirst isSecond).imp Ne.symm Ne.symm
  refine ⟨perm.mem_iff.mp acceptable.defaultField, acceptable.defaultValid, ?_, ?_, ?_, ?_⟩
  · intro pair member
    exact acceptable.keys pair (perm.mem_iff.mpr member)
  · intro pair member
    exact acceptable.entries pair (entries.mem_iff.mpr member)
  · exact (entries.pairwise_iff symmetric).mp acceptable.names
  · simpa only [mem_writtenLanguages_perm perm] using acceptable.methods

/-- The field is found in every order, as there is no other one. -/
theorem find_defaultField_perm (apart : Value.KeysApart (.mapping pairs))
    (member : (.string defaultField, .string default) ∈ pairs) :
    permuted.find? (fun pair => isDefaultField pair.1) =
      some (.string defaultField, .string default) := by
  have once := (perm.pairwise_iff fun alone both => alone both.symm).mp
    (pairwise_defaultField apart)
  exact Lists.find?_of_pairwise once (perm.mem_iff.mp member) (isDefaultField_iff.mpr rfl)

theorem exists_reads_perm_iff (apart : Value.KeysApart (.mapping pairs)) :
    (∃ drafts catalog, Reads strict pairs drafts catalog) ↔
      ∃ drafts catalog, Reads strict permuted drafts catalog := by
  constructor
  · intro read
    obtain ⟨_, catalog, reads⟩ := read
    have acceptable := reads.acceptable
    exact (acceptable.of_perm perm).exists_reads_of_find
      (find_defaultField_perm perm apart acceptable.defaultField)
  · intro read
    obtain ⟨_, catalog, reads⟩ := read
    exact (reads.acceptable.of_perm perm.symm).exists_reads apart

end Order

/-- The entries of a catalog differ in their keys. -/
theorem Reads.nodup_keys {drafts : List Draft} {catalog : Catalog}
    (reads : Reads strict pairs drafts catalog) : (catalog.entries.map Entry.key).Nodup := by
  rw [List.Nodup, List.pairwise_map]
  apply Lists.pairwise_of_forall₂ reads.holds _ reads.acceptable.names
  intro firstPair secondPair first second holdsFirst holdsSecond apart same
  apply (apart first.key second.key holdsFirst.key holdsSecond.key).1
  rw [same]

/-- Both catalogs hold the same, if in another order. -/
structure Rearranges (catalog rearranged : Catalog) : Prop where
  defaultLanguage : rearranged.defaultLanguage = catalog.defaultLanguage
  languages : catalog.languages.Perm rearranged.languages
  entries : ∃ entries, List.Forall₂ Entry.Agrees catalog.entries entries ∧
    entries.Perm rearranged.entries
  byKey : ∀ entry ∈ catalog.entries, ∀ other ∈ rearranged.entries,
    other.key = entry.key → entry.Agrees other

theorem Reads.rearranges {permuted : List Pair} {drafts others : List Draft}
    {catalog rearranged : Catalog} (apart : Value.KeysApart (.mapping pairs))
    (perm : pairs.Perm permuted) (reads : Reads strict pairs drafts catalog)
    (readsOthers : Reads strict permuted others rearranged) :
    Rearranges catalog rearranged := by
  have isDefault := find_defaultField apart
    (perm.mem_iff.mpr readsOthers.acceptable.defaultField)
  rw [(defaultOf_eq_ok_iff.mp reads.default).2] at isDefault
  have same : rearranged.defaultLanguage = catalog.defaultLanguage := by
    simpa using isDefault.symm
  have known (language : String) :
      language ∈ catalog.languages ↔ language ∈ rearranged.languages := by
    rw [reads.mem_languages_iff, readsOthers.mem_languages_iff, same,
      mem_writtenLanguages_perm perm]
  have holdsOthers := readsOthers.holds
  rw [same] at holdsOthers
  obtain ⟨entries, holdsEntries, permEntries⟩ :=
    List.perm_comp_forall₂ (perm.filter Pair.isEntry) holdsOthers
  have agree : List.Forall₂ Entry.Agrees catalog.entries entries := by
    apply Lists.forall₂_trans _ reads.holds.flip holdsEntries
    intro entry _ other holds holdsOther
    exact holds.agrees holdsOther known
  refine ⟨same, ?_, ⟨entries, agree, permEntries⟩, ?_⟩
  · exact (List.perm_ext_iff_of_nodup reads.nodup_languages readsOthers.nodup_languages).mpr known
  · intro entry member other isOther sameKey
    obtain ⟨found, isFound, agrees⟩ :=
      Lists.exists_of_mem_right agree (permEntries.mem_iff.mpr isOther)
    have sameEntry : found = entry :=
      List.inj_on_of_nodup_map reads.nodup_keys isFound member (agrees.names.key.symm.trans sameKey)
    rw [← sameEntry]
    exact agrees

/-- The order of the pairs does not decide whether a document is accepted, and the catalogs of
two orders differ in nothing but the order of their entries and languages. -/
theorem ofValue_perm {permuted : List Pair} (apart : Value.KeysApart (.mapping pairs))
    (perm : pairs.Perm permuted) :
    ((∃ catalog, ofValue strict (.mapping pairs) = .ok catalog) ↔
      ∃ rearranged, ofValue strict (.mapping permuted) = .ok rearranged) ∧
    ∀ catalog rearranged, ofValue strict (.mapping pairs) = .ok catalog →
      ofValue strict (.mapping permuted) = .ok rearranged → Rearranges catalog rearranged := by
  have accepted_iff (items : List Pair) :
      (∃ catalog, ofValue strict (.mapping items) = .ok catalog) ↔
        ∃ drafts catalog, Reads strict items drafts catalog := by
    rw [exists_comm]
    simp [ofValue_eq_ok_iff]
  constructor
  · rw [accepted_iff, accepted_iff]
    exact exists_reads_perm_iff perm apart
  · intro catalog rearranged accepted acceptedOthers
    obtain ⟨_, drafts, ⟨⟩, reads⟩ := ofValue_eq_ok_iff.mp accepted
    obtain ⟨_, others, ⟨⟩, readsOthers⟩ := ofValue_eq_ok_iff.mp acceptedOthers
    exact reads.rearranges apart perm readsOthers

/-- The same document with its last entry in front. -/
def homeFirstCatalog : Catalog where
  defaultLanguage := "en"
  languages := ["de", "en"]
  entries :=
    [⟨⟨"home", []⟩, "Home", "home",
        [("de", ⟨[.literal "Heim"], [], false⟩), ("en", ⟨[.literal "Home"], [], false⟩)]⟩,
      ⟨⟨"house", []⟩, "House", "house",
        [("de", ⟨[.literal "House"], [], true⟩), ("en", ⟨[.literal "House"], [], false⟩)]⟩]

theorem homeFirst_perm :
    Value.KeysApart (.mapping (housePairs ++ [homePair])) ∧
    (housePairs ++ [homePair]).Perm (homePair :: housePairs) ∧
    ofValue false (.mapping (homePair :: housePairs)) = .ok homeFirstCatalog ∧
      Rearranges homeCatalog homeFirstCatalog := by
  have apart : Value.KeysApart (.mapping (housePairs ++ [homePair])) := by
    simp [housePairs, homePair, Value.keysApart_mapping_iff, Value.same, Value.KeysApart.string]
  have perm : (housePairs ++ [homePair]).Perm (homePair :: housePairs) :=
    List.perm_append_singleton homePair housePairs
  have accepted : ofValue false (.mapping (homePair :: housePairs)) = .ok homeFirstCatalog := by
    decide +kernel
  exact ⟨apart, perm, accepted, (ofValue_perm apart perm).2 _ _ ofValue_homePairs accepted⟩

end Catalog

end Phrasebook
