/-
This file says which texts of a document a catalog keeps. Keys are read through their tags, so
two keys that differ for a mapping can be the same for a catalog. The main statement is that
nothing is lost exactly where no tagged key reads like another one.
-/

import Phrasebook.Proofs.Catalog.Acceptance

namespace Phrasebook

open Text Yaml

def Yaml.Value.isTagged : Value → Bool
  | .tagged .. => true
  | _ => false

namespace Pair

/-- An earlier plain text of the same language stands before the text of the pair. -/
def Shadows (pair wording : Pair) : Prop :=
  ∃ language text first, plain? wording = some (language, text) ∧
    pair.plainTexts.lookup language = some first ∧ first ≠ text

/-- The language of a plain pair. -/
def plainLanguage? (pair : Pair) : Option String :=
  pair.plain?.map Prod.fst

theorem plainLanguages_eq (pair : Pair) :
    pair.plainLanguages = pair.wordings.filterMap plainLanguage? := by
  rw [plainLanguages, plainTexts, List.map_filterMap]
  rfl

/-- The key of a plain pair is its language. -/
theorem text?_of_plainLanguage {pair : Pair} {language : String}
    (isPlain : pair.plainLanguage? = some language) : pair.1.text? = some language := by
  obtain ⟨⟨found, text⟩, isPair, same⟩ := Option.map_eq_some_iff.mp isPlain
  obtain rfl : found = language := same
  have isWording := plain?_eq_some_iff.mp isPair
  rw [wording?] at isWording
  split at isWording
  · rename_i raw _ isRaw _
    rw [isRaw]
    obtain ⟨key, isKey, both⟩ := Option.map_eq_some_iff.mp isWording
    obtain ⟨sameKey, _⟩ := Prod.mk.inj both
    rw [LanguageKey.split] at isKey
    split at isKey
    · cases isKey
    · cases isKey
      cases sameKey
      rfl
    · dsimp only at isKey
      split at isKey <;> cases isKey
      cases sameKey
  · cases isWording

end Pair

/-- The entry has the text of a pair in the wording of its language. -/
def Entry.Represents (entry : Entry) (pair : Pair) : Prop :=
  match pair.wording? with
  | some (.plain language, text) =>
      ∃ wording, entry.wording? language = some wording ∧ wording.base.display = text
  | some (.conditional language condition, text) =>
      ∃ wording, entry.wording? language = some wording ∧
        ∃ conditional ∈ wording.conditionals,
          conditional.condition = condition ∧ conditional.template.display = text
  | none => False

namespace Entry.Holds

variable {default : String} {languages : List String} {pair : Pair} {entry : Entry}

theorem represents_plain_iff (holds : entry.Holds default languages pair) {wording : Pair}
    {language text : String} (member : wording ∈ pair.wordings)
    (isWording : Pair.wording? wording = some (.plain language, text)) :
    entry.Represents wording ↔ pair.plainTexts.lookup language = some text := by
  have isPlain : (language, text) ∈ pair.plainTexts :=
    List.mem_filterMap.mpr ⟨wording, member, Pair.plain?_eq_some_iff.mpr isWording⟩
  have isWritten : language ∈ pair.plainTexts.map Prod.fst :=
    List.mem_map.mpr ⟨_, isPlain, rfl⟩
  obtain ⟨first, isFirst⟩ := Lists.exists_lookup isWritten
  simp [Entry.Represents, isWording, holds.written language first isFirst, isFirst,
    Template.display_ofText]

theorem represents_conditional (holds : entry.Holds default languages pair)
    (bases : pair.conditionalLanguages ⊆ pair.plainLanguages) {wording : Pair}
    {language condition text : String} (member : wording ∈ pair.wordings)
    (isWording : Pair.wording? wording = some (.conditional language condition, text)) :
    entry.Represents wording := by
  have isConditional : (language, condition, text) ∈ pair.conditionalTexts :=
    List.mem_filterMap.mpr ⟨wording, member, Pair.conditional?_eq_some_iff.mpr isWording⟩
  have isWritten := bases (List.mem_map.mpr ⟨_, isConditional, rfl⟩)
  obtain ⟨first, isFirst⟩ := Lists.exists_lookup isWritten
  have kept : ⟨condition, Template.ofText entry.parameters text⟩ ∈
      pair.conditionalsOf entry.parameters language := by
    have isKept : (language, condition, text) ∈ pair.conditionalTexts.filter (·.1 == language) :=
      List.mem_filter.mpr ⟨isConditional, beq_self_eq_true language⟩
    exact List.mem_map.mpr ⟨_, isKept, rfl⟩
  rw [Entry.Represents, isWording]
  exact ⟨_, holds.written language first isFirst, _, kept, rfl, Template.display_ofText _ _⟩

/-- A text is lost exactly where an earlier one shadows it. -/
theorem represents_iff (holds : entry.Holds default languages pair)
    (bases : pair.conditionalLanguages ⊆ pair.plainLanguages) {wording : Pair}
    (member : wording ∈ pair.wordings) :
    entry.Represents wording ↔ ¬pair.Shadows wording := by
  obtain ⟨⟨key, text⟩, isWording⟩ := Option.isSome_iff_exists.mp (holds.readable wording member)
  cases key with
  | conditional language condition =>
      apply iff_of_true (holds.represents_conditional bases member isWording)
      intro shadowed
      obtain ⟨_, _, _, isPlain, _⟩ := shadowed
      rw [Pair.plain?_eq_some_iff, isWording] at isPlain
      cases isPlain
  | plain language =>
      have isPlain := Pair.plain?_eq_some_iff.mpr isWording
      rw [holds.represents_plain_iff member isWording]
      constructor
      · intro isText shadowed
        obtain ⟨_, _, first, isSame, isFirst, differs⟩ := shadowed
        cases isPlain.symm.trans isSame
        exact differs (Option.some.inj (isFirst.symm.trans isText))
      · intro alone
        have isWritten : language ∈ pair.plainTexts.map Prod.fst :=
          List.mem_map.mpr ⟨_, List.mem_filterMap.mpr ⟨wording, member, isPlain⟩, rfl⟩
        obtain ⟨first, isFirst⟩ := Lists.exists_lookup isWritten
        by_contra missing
        have differs : first ≠ text := by
          intro same
          rw [same] at isFirst
          exact missing isFirst
        exact alone ⟨language, text, first, isPlain, isFirst, differs⟩

end Entry.Holds

namespace Pair

/-- No tagged key of the entry reads as the language of another plain key. -/
def TagsApart (pair : Pair) : Prop :=
  ∀ wording ∈ pair.wordings, wording.1.isTagged → ∀ language,
    plainLanguage? wording = some language → pair.plainLanguages.count language = 1

/-- Keys that read alike without being the same have a tag. -/
theorem isTagged_of_text?_eq {first second : Value} {text : String}
    (differs : first.same second = false) (isFirst : first.text? = some text)
    (isSecond : second.text? = some text) : first.isTagged ∨ second.isTagged := by
  cases first with
  | tagged tag value => exact .inl rfl
  | string firstText =>
      cases second with
      | tagged tag value => exact .inr rfl
      | string secondText =>
          cases isFirst
          cases isSecond
          simp [Value.same] at differs
      | _ => cases isSecond
  | _ => cases isFirst

theorem nodup_plainLanguages_iff {pair : Pair}
    (apart : pair.wordings.Pairwise fun first second => first.1.same second.1 = false) :
    pair.plainLanguages.Nodup ↔ pair.TagsApart := by
  constructor
  · intro distinct wording member _ language isPlain
    apply List.count_eq_one_of_mem distinct
    rw [plainLanguages_eq]
    exact List.mem_filterMap.mpr ⟨wording, member, isPlain⟩
  · intro tagsApart
    rw [plainLanguages_eq, List.Nodup, List.pairwise_filterMap,
      List.pairwise_iff_forall_sublist]
    intro first second both language isFirst other isSecond same
    subst same
    have repeated : [language, language].Sublist pair.plainLanguages := by
      have kept := both.filterMap plainLanguage?
      rw [plainLanguages_eq]
      simpa [isFirst, isSecond] using kept
    have twice : 2 ≤ pair.plainLanguages.count language := by
      have counted := repeated.count_le language
      simpa using counted
    have once : pair.plainLanguages.count language = 1 := by
      have differs := List.pairwise_iff_forall_sublist.mp apart both
      rcases isTagged_of_text?_eq differs (text?_of_plainLanguage isFirst)
        (text?_of_plainLanguage isSecond) with tagged | tagged
      · exact tagsApart first (both.subset (by simp)) tagged language isFirst
      · exact tagsApart second (both.subset (by simp)) tagged language isSecond
    omega

end Pair

/-- Where the plain languages differ, no text shadows another. -/
theorem Pair.not_shadows {pair wording : Pair} (distinct : pair.plainLanguages.Nodup)
    (member : wording ∈ pair.wordings) : ¬pair.Shadows wording := by
  intro shadowed
  obtain ⟨language, text, first, isPlain, isFirst, differs⟩ := shadowed
  have isText : (language, text) ∈ pair.plainTexts :=
    List.mem_filterMap.mpr ⟨wording, member, isPlain⟩
  have found := Lists.lookup_of_nodup distinct isText
  exact differs (Option.some.inj (isFirst.symm.trans found))

/-- Nothing of an entry is lost. -/
structure Entry.Keeps (pair : Pair) (entry : Entry) : Prop where
  key : pair.entryKey? = some entry.key
  languages : pair.plainLanguages.Nodup
  texts : ∀ wording ∈ pair.wordings, entry.Represents wording

namespace Catalog

/-- The pairs besides the field that names the default language. -/
def otherPairs (pairs : List Pair) : List Pair :=
  pairs.filter fun pair => !isDefaultField pair.1

/-- Nothing of a document is lost. -/
def Keeps (pairs : List Pair) (catalog : Catalog) : Prop :=
  List.Forall₂ Entry.Keeps (otherPairs pairs) catalog.entries

/-- No tagged key of a document names the default language or reads like another plain key. -/
structure TagsApart (pairs : List Pair) : Prop where
  entries : ∀ pair ∈ pairs, pair.1.isTagged → pair.1.text? ≠ some defaultField
  languages : ∀ pair ∈ entryPairs pairs, pair.TagsApart

theorem entryPairs_eq (pairs : List Pair) :
    entryPairs pairs = (otherPairs pairs).filter Pair.isEntry := by
  rw [otherPairs, List.filter_filter, entryPairs]
  apply List.filter_congr
  intro pair _
  cases isField : isDefaultField pair.1 with
  | false => simp
  | true => simp [Pair.isEntry, isDefaultField_iff.mp isField, Value.text?]

/-- Every pair besides the field makes an entry exactly where no tagged key reads as the field. -/
theorem length_otherPairs_iff {pairs : List Pair} :
    (otherPairs pairs).length = (entryPairs pairs).length ↔
      ∀ pair ∈ pairs, pair.1.isTagged → pair.1.text? ≠ some defaultField := by
  rw [entryPairs_eq, eq_comm, List.length_filter_eq_length_iff]
  constructor
  · intro every pair member tagged
    have isOther : isDefaultField pair.1 = false := by
      cases isKey : pair.1 with
      | tagged tag value => rfl
      | _ => simp [isKey, Value.isTagged] at tagged
    have isEntry := every pair (List.mem_filter.mpr ⟨member, by simp [isOther]⟩)
    simpa [Pair.isEntry] using isEntry
  · intro apart pair member
    obtain ⟨isPair, isOther⟩ := List.mem_filter.mp member
    have untagged := apart pair isPair
    rw [Pair.isEntry, bne_iff_ne]
    cases isKey : pair.1 with
    | tagged tag value => exact isKey ▸ untagged (by rw [isKey]; rfl)
    | string text => simpa [isKey, isDefaultField, Value.text?] using isOther
    | _ => simp [Value.text?]

namespace Reads

variable {strict : Bool} {pairs : List Pair} {drafts : List Draft} {catalog : Catalog}

theorem apart_wordings (reads : Reads strict pairs drafts catalog)
    (apart : Value.KeysApart (.mapping pairs)) {pair : Pair} (member : pair ∈ entryPairs pairs) :
    pair.wordings.Pairwise fun first second => first.1.same second.1 = false := by
  obtain ⟨draft, _, readsDraft⟩ := Lists.exists_of_mem_left reads.each member
  cases apart with
  | mapping _ _ values =>
      have inner := values pair (List.mem_of_mem_filter member)
      rw [readsDraft.mapping] at inner
      cases inner with
      | mapping distinct _ _ => exact distinct

/-- In every document a text is lost only where an earlier one of its language shadows it. -/
theorem represents (reads : Reads strict pairs drafts catalog) :
    List.Forall₂ (fun pair entry => pair.entryKey? = some entry.key ∧
      ∀ wording ∈ pair.wordings, entry.Represents wording ↔ ¬pair.Shadows wording)
      (entryPairs pairs) catalog.entries := by
  apply Lists.forall₂_imp_of_mem reads.holds
  intro pair member entry holds
  refine ⟨holds.key, ?_⟩
  intro wording isWording
  obtain ⟨draft, _, readsDraft⟩ := Lists.exists_of_mem_left reads.each member
  exact holds.represents_iff readsDraft.bases isWording

theorem keeps_iff (reads : Reads strict pairs drafts catalog)
    (apart : Value.KeysApart (.mapping pairs)) : Keeps pairs catalog ↔ TagsApart pairs := by
  have distinct_iff {pair : Pair} (member : pair ∈ entryPairs pairs) :=
    Pair.nodup_plainLanguages_iff (reads.apart_wordings apart member)
  constructor
  · intro keeps
    have lengths := keeps.length_eq.trans reads.holds.length_eq.symm
    refine ⟨length_otherPairs_iff.mp lengths, ?_⟩
    intro pair member
    rw [entryPairs_eq] at member
    obtain ⟨entry, _, kept⟩ := Lists.exists_of_mem_left keeps (List.mem_of_mem_filter member)
    rw [← entryPairs_eq] at member
    exact (distinct_iff member).mp kept.languages
  · intro tagsApart
    have lengths := length_otherPairs_iff.mpr tagsApart.entries
    have same : entryPairs pairs = otherPairs pairs := by
      apply List.Sublist.eq_of_length _ lengths.symm
      rw [entryPairs_eq]
      exact List.filter_sublist
    rw [Keeps, ← same]
    apply Lists.forall₂_imp_of_mem reads.represents
    intro pair member entry both
    obtain ⟨isKey, represented⟩ := both
    have distinct := (distinct_iff member).mpr (tagsApart.languages pair member)
    refine ⟨isKey, distinct, ?_⟩
    intro wording isWording
    exact (represented wording isWording).mpr (Pair.not_shadows distinct isWording)

end Reads

/-- A parsed catalog keeps its whole document exactly where the tags keep the keys apart. An
entry keeps a text of its own exactly where no earlier one of the same language shadows it. -/
theorem parse_keeps_iff {strict : Bool} {source : String} {catalog : Catalog}
    (parsed : parse strict source = .ok catalog) :
    ∃ pairs, Value.load source = .ok (.mapping pairs) ∧
      (Keeps pairs catalog ↔ TagsApart pairs) ∧
      List.Forall₂ (fun pair entry => pair.entryKey? = some entry.key ∧
        ∀ wording ∈ pair.wordings, entry.Represents wording ↔ ¬pair.Shadows wording)
        (entryPairs pairs) catalog.entries := by
  obtain ⟨pairs, drafts, loaded, reads⟩ := parse_eq_ok_iff.mp parsed
  exact ⟨pairs, loaded, reads.keeps_iff (Value.load_keysApart loaded), reads.represents⟩

theorem house_keeps_iff : parse false houseSource = .ok houseCatalog ∧
    ∃ pairs, Value.load houseSource = .ok (.mapping pairs) ∧
      (Keeps pairs houseCatalog ↔ TagsApart pairs) ∧
      List.Forall₂ (fun pair entry => pair.entryKey? = some entry.key ∧
        ∀ wording ∈ pair.wordings, entry.Represents wording ↔ ¬pair.Shadows wording)
        (entryPairs pairs) houseCatalog.entries :=
  ⟨parse_houseSource false, parse_keeps_iff (parse_houseSource false)⟩

/-- A tagged key and a plain one read as the same language. -/
def shadowedSource : String :=
  "default: en\nhello:\n  en: A\n  !x en: B\n"

/-- The second text of the document is nowhere in its catalog. -/
theorem not_keeps : ¬∀ (strict : Bool) (source : String) (catalog : Catalog)
    (pairs : List Pair), parse strict source = .ok catalog →
      Value.load source = .ok (.mapping pairs) → Keeps pairs catalog := by
  intro every
  have parsed : parse false shadowedSource = .ok ⟨"en", ["en"],
      [⟨⟨"hello", []⟩, "Hello", "hello", [("en", ⟨[.literal "A"], [], false⟩)]⟩]⟩ := by
    decide +kernel
  have texts : (Value.load shadowedSource).toOption.map (fun value =>
      (otherPairs value.pairs).map Pair.plainTexts) = some [[("en", "A"), ("en", "B")]] := by
    decide +kernel
  obtain ⟨pairs, drafts, loaded, _⟩ := parse_eq_ok_iff.mp parsed
  rw [loaded] at texts
  have written : (otherPairs pairs).map Pair.plainTexts = [[("en", "A"), ("en", "B")]] :=
    Option.some.inj texts
  obtain ⟨pair, isPair, isWritten⟩ := List.mem_map.mp (written ▸ List.mem_cons_self :
    [("en", "A"), ("en", "B")] ∈ (otherPairs pairs).map Pair.plainTexts)
  have isText : ("en", "B") ∈ pair.plainTexts := by
    rw [isWritten]
    decide
  obtain ⟨wording, member, isPlain⟩ := List.mem_filterMap.mp isText
  obtain ⟨entry, isEntry, kept⟩ :=
    Lists.exists_of_mem_left (every _ _ _ _ parsed loaded) isPair
  have represented := kept.texts wording member
  rw [Entry.Represents, Pair.plain?_eq_some_iff.mp isPlain, List.mem_singleton.mp isEntry]
    at represented
  obtain ⟨found, isFound, shown⟩ := represented
  cases isFound
  exact absurd shown (by decide)

end Catalog

end Phrasebook
