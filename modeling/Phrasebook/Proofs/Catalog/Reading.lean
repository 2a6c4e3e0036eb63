/-
This file takes the reading of a catalog apart. The main statement is that a value reads as a
catalog exactly where its pairs, its languages and the drafts between them fit together.
-/

import Phrasebook.Proofs.Catalog.Draft

namespace Phrasebook

open Text Yaml

namespace Draft

def NamesUsable (draft : Draft) : Prop :=
  isIdentifier draft.variantName ∧ isIdentifier draft.functionName

/-- The names of the generated items of two drafts differ. -/
def NamesApart (first second : Draft) : Prop :=
  first.variantName ≠ second.variantName ∧ first.functionName ≠ second.functionName

theorem checkNames_eq_ok_iff {seen : List Draft} {draft : Draft} :
    checkNames seen draft = .ok () ↔
      draft.NamesUsable ∧ ∀ earlier ∈ seen, earlier.NamesApart draft := by
  rw [checkNames, NamesUsable]
  by_cases usable : isIdentifier draft.variantName ∧ isIdentifier draft.functionName
  · simp [usable, NamesApart]
  · have refused :
        (!isIdentifier draft.variantName || !isIdentifier draft.functionName) = true := by
      revert usable
      cases isIdentifier draft.variantName <;> cases isIdentifier draft.functionName <;> simp
    simp [usable, refused]

/-- The second look for a text in the default language never fails on a draft. -/
theorem Reads.complete_eq {strict : Bool} {default : String} {pair : Pair} {draft : Draft}
    (reads : Reads strict default pair draft) (languages : List String) :
    ∃ base, draft.base? default = some base ∧ draft.complete languages default =
      .ok ⟨draft.key, draft.variantName, draft.functionName,
        languages.map fun language => (language, draft.wording base language)⟩ := by
  have isSome := (isSome_base_iff reads.wordings default).mpr reads.base
  obtain ⟨base, isBase⟩ := Option.isSome_iff_exists.mp isSome
  refine ⟨base, isBase, ?_⟩
  rw [complete, isBase]

end Draft

namespace Catalog

theorem isDefaultField_iff {key : Value} :
    isDefaultField key = true ↔ key = .string defaultField := by
  cases key <;> simp [isDefaultField]

theorem defaultOf_eq_ok_iff {pairs : List Pair} {code : String} :
    defaultOf pairs = .ok code ↔ Language.check code = .ok () ∧
      pairs.find? (fun pair => isDefaultField pair.1) =
        some (.string defaultField, .string code) := by
  rw [defaultOf, Language.check_eq_ok_iff]
  cases isField : pairs.find? fun pair => isDefaultField pair.1 with
  | none => simp
  | some pair =>
      obtain ⟨key, value⟩ := pair
      have isDefault := List.find?_some isField
      obtain rfl : key = .string defaultField := isDefaultField_iff.mp isDefault
      cases value with
      | string found =>
          cases isFault : Language.fault? found with
          | none =>
              simp only [isFault, Option.isNone_none, if_true, Except.ok.injEq,
                Option.some.injEq, Prod.mk.injEq, true_and, Value.string.injEq]
              constructor
              · intro same
                subst same
                exact ⟨isFault, rfl⟩
              · intro accepted
                exact accepted.2
          | some fault =>
              simp only [isFault, Option.isNone_some, Bool.false_eq_true, if_false,
                reduceCtorEq, Option.some.injEq, Prod.mk.injEq, true_and, Value.string.injEq,
                false_iff, not_and]
              intro accepted same
              subst same
              simp [isFault] at accepted
      | _ => simp

section

variable {strict : Bool} {default raw : String} {seen : List Draft} {pair : Pair}
  {rest : List Pair}

theorem readDrafts_of_noText (noText : pair.1.text? = none) :
    readDrafts strict default seen (pair :: rest) =
      .error (.malformed (.entryKey (describe pair.1))) := by
  rw [readDrafts, noText]
  rfl

theorem readDrafts_of_default (isDefault : pair.1.text? = some defaultField) :
    readDrafts strict default seen (pair :: rest) = readDrafts strict default seen rest := by
  rw [readDrafts, isDefault]
  rfl

theorem readDrafts_of_entry (isRaw : pair.1.text? = some raw) (isEntry : raw ≠ defaultField) :
    readDrafts strict default seen (pair :: rest) = do
      let draft ← Draft.ofPair strict default raw pair.2
      draft.checkNames seen
      let drafts ← readDrafts strict default (draft :: seen) rest
      return draft :: drafts := by
  have differs : (raw == defaultField) = false := beq_eq_false_iff_ne.mpr isEntry
  rw [readDrafts, isRaw]
  simp only [differs, Bool.false_eq_true, if_false]

theorem entryPairs_cons_of_default (isDefault : pair.1.text? = some defaultField) :
    entryPairs (pair :: rest) = entryPairs rest := by
  simp [entryPairs, Pair.isEntry, isDefault]

theorem entryPairs_cons_of_entry (isEntry : pair.1.text? ≠ some defaultField) :
    entryPairs (pair :: rest) = pair :: entryPairs rest :=
  List.filter_cons_of_pos (by simpa [Pair.isEntry] using isEntry)

end

/-- Reading the pairs in order checks each draft against those before it. -/
theorem readDrafts_eq_ok_iff {strict : Bool} {default : String} {seen drafts : List Draft}
    {pairs : List Pair} :
    readDrafts strict default seen pairs = .ok drafts ↔
      (∀ pair ∈ pairs, pair.1.text?.isSome) ∧
      List.Forall₂ (Draft.Reads strict default) (entryPairs pairs) drafts ∧
      (∀ draft ∈ drafts, draft.NamesUsable) ∧
      (∀ draft ∈ drafts, ∀ earlier ∈ seen, earlier.NamesApart draft) ∧
      drafts.Pairwise Draft.NamesApart := by
  induction pairs generalizing seen drafts with
  | nil =>
      rw [readDrafts, entryPairs, List.filter_nil, List.forall₂_nil_left_iff]
      constructor
      · intro same
        cases same
        simp
      · intro fits
        rw [fits.2.1]
  | cons pair rest inductionHypothesis =>
      cases isRaw : pair.1.text? with
      | none => simp [readDrafts_of_noText isRaw, isRaw]
      | some raw =>
          by_cases isDefault : raw = defaultField
          · subst isDefault
            simp only [readDrafts_of_default isRaw, entryPairs_cons_of_default isRaw,
              inductionHypothesis, List.forall_mem_cons, isRaw, Option.isSome_some, true_and]
          · have isEntry : pair.1.text? ≠ some defaultField := by simp [isRaw, isDefault]
            simp only [readDrafts_of_entry isRaw isDefault, entryPairs_cons_of_entry isEntry,
              Outcome.bind_eq_ok_iff, Draft.ofPair_eq_ok_iff pair isRaw, inductionHypothesis,
              List.forall₂_cons_left_iff, List.forall_mem_cons, isRaw, Option.isSome_some,
              true_and]
            constructor
            · intro succeeded
              obtain ⟨draft, reads, _, named, further,
                ⟨texts, readsRest, usableRest, apartRest, pairwise⟩, result⟩ := succeeded
              cases result
              obtain ⟨usable, apart⟩ := Draft.checkNames_eq_ok_iff.mp named
              have apartFromSeen : ∀ later ∈ further, ∀ earlier ∈ seen,
                  earlier.NamesApart later :=
                fun later member => (apartRest later member).2
              have apartFromFirst : ∀ later ∈ further, draft.NamesApart later :=
                fun later member => (apartRest later member).1
              exact ⟨texts, ⟨draft, further, reads, readsRest, rfl⟩,
                List.forall_mem_cons.mpr ⟨usable, usableRest⟩,
                List.forall_mem_cons.mpr ⟨apart, apartFromSeen⟩,
                List.pairwise_cons.mpr ⟨apartFromFirst, pairwise⟩⟩
            · intro fits
              obtain ⟨texts, ⟨draft, further, reads, readsRest, rfl⟩, usable, apart, pairwise⟩ :=
                fits
              obtain ⟨usableFirst, usableRest⟩ := List.forall_mem_cons.mp usable
              obtain ⟨apartFirst, apartRest⟩ := List.forall_mem_cons.mp apart
              obtain ⟨apartLater, pairwiseRest⟩ := List.pairwise_cons.mp pairwise
              have named := Draft.checkNames_eq_ok_iff.mpr ⟨usableFirst, apartFirst⟩
              have apartFurther : ∀ later ∈ further, draft.NamesApart later ∧
                  ∀ earlier ∈ seen, earlier.NamesApart later :=
                fun later member => ⟨apartLater later member, apartRest later member⟩
              exact ⟨draft, reads, (), named, further,
                ⟨texts, readsRest, usableRest, apartFurther, pairwiseRest⟩, rfl⟩

theorem checkMethods_eq_ok_iff {seen languages : List String} :
    checkMethods seen languages = .ok () ↔
      (languages.map Language.methodName).Nodup ∧
        ∀ language ∈ languages, Language.methodName language ∉ seen := by
  induction languages generalizing seen with
  | nil => simp [checkMethods]
  | cons language rest inductionHypothesis =>
      rw [checkMethods, List.map_cons, List.nodup_cons, List.forall_mem_cons]
      by_cases taken : Language.methodName language ∈ seen
      · simp [taken]
      · simp only [List.contains_iff_mem, taken, if_false, inductionHypothesis, List.mem_cons,
          not_or, not_false_eq_true, true_and, List.mem_map, not_exists, not_and]
        constructor
        · intro checked
          obtain ⟨distinct, fresh⟩ := checked
          exact ⟨⟨fun other member => (fresh other member).1, distinct⟩,
            fun other member => (fresh other member).2⟩
        · intro apart
          obtain ⟨⟨differs, distinct⟩, fresh⟩ := apart
          exact ⟨distinct, fun other member => ⟨differs other member, fresh other member⟩⟩

theorem nodup_languagesOf (default : String) (drafts : List Draft) :
    (languagesOf default drafts).Nodup := by
  rw [languagesOf]
  split
  · exact Lists.nodup_eraseDups _
  · rename_i missing
    refine List.nodup_append.mpr ⟨Lists.nodup_eraseDups _, List.nodup_singleton _, ?_⟩
    intro language member other isOther same
    rw [List.mem_singleton.mp isOther] at same
    subst same
    exact missing (List.contains_iff_mem.mpr member)

/-- The known languages are the default and those with a plain text. -/
theorem mem_languagesOf_iff {default language : String} {drafts : List Draft} :
    language ∈ languagesOf default drafts ↔ language = default ∨
      language ∈ drafts.flatMap fun draft => draft.plain.map Prod.fst := by
  rw [languagesOf]
  split
  · rename_i isWritten
    rw [List.mem_eraseDups]
    constructor
    · exact Or.inr
    · intro known
      rcases known with same | member
      · rw [same]
        exact List.mem_eraseDups.mp (List.contains_iff_mem.mp isWritten)
      · exact member
  · rw [List.mem_append, List.mem_singleton, List.mem_eraseDups]
    exact or_comm

/-- What the pairs of a document must be to be read as a catalog, by way of drafts. -/
structure Reads (strict : Bool) (pairs : List Pair) (drafts : List Draft) (catalog : Catalog) :
    Prop where
  default : defaultOf pairs = .ok catalog.defaultLanguage
  texts : ∀ pair ∈ pairs, pair.1.text?.isSome
  each : List.Forall₂ (Draft.Reads strict catalog.defaultLanguage) (entryPairs pairs) drafts
  usable : ∀ draft ∈ drafts, draft.NamesUsable
  apart : drafts.Pairwise Draft.NamesApart
  languages : catalog.languages = languagesOf catalog.defaultLanguage drafts
  methods : (catalog.languages.map Language.methodName).Nodup
  entries : List.Forall₂ (fun draft entry =>
    draft.complete catalog.languages catalog.defaultLanguage = .ok entry) drafts catalog.entries

theorem ofValue_eq_ok_iff {strict : Bool} {value : Value} {catalog : Catalog} :
    ofValue strict value = .ok catalog ↔
      ∃ pairs drafts, value = .mapping pairs ∧ Reads strict pairs drafts catalog := by
  constructor
  · intro succeeded
    cases value with
    | mapping pairs =>
        simp only [ofValue, ofDrafts, Outcome.bind_eq_ok_iff, readDrafts_eq_ok_iff,
          Outcome.mapM_eq_ok_iff] at succeeded
        obtain ⟨default, isDefault, drafts, ⟨texts, each, usable, -, apart⟩, _, checked,
          entries, completed, result⟩ := succeeded
        cases result
        have methods := (checkMethods_eq_ok_iff.mp checked).1
        exact ⟨pairs, drafts, rfl, isDefault, texts, each, usable, apart, rfl, methods, completed⟩
    | _ => simp [ofValue, throw, throwThe, MonadExceptOf.throw] at succeeded
  · intro fits
    obtain ⟨pairs, drafts, rfl, reads⟩ := fits
    simp only [ofValue, ofDrafts, Outcome.bind_eq_ok_iff, readDrafts_eq_ok_iff,
      Outcome.mapM_eq_ok_iff]
    refine ⟨catalog.defaultLanguage, reads.default, drafts,
      ⟨reads.texts, reads.each, reads.usable, by simp, reads.apart⟩, ?_⟩
    rw [← reads.languages]
    refine ⟨(), ?_, catalog.entries, reads.entries, rfl⟩
    exact checkMethods_eq_ok_iff.mpr ⟨reads.methods, by simp⟩

/-- A source reads as a catalog where it loads as the mapping that the catalog is read from. -/
theorem parse_eq_ok_iff {strict : Bool} {source : String} {catalog : Catalog} :
    parse strict source = .ok catalog ↔ ∃ pairs drafts,
      Value.load source = .ok (.mapping pairs) ∧ Reads strict pairs drafts catalog := by
  rw [parse]
  cases loaded : Value.load source with
  | error fault => simp
  | ok value =>
      simp only [ofValue_eq_ok_iff, Except.ok.injEq]

/-- A small document with a parameter, a condition and a borrowed text. -/
def houseSource : String :=
  "default: en\nhouse:\n  de: Haus\n  en: House\nhouses(count):\n" ++
    "  en(count == \"1\"): One house\n  en: (count) houses\n"

def houseCatalog : Catalog where
  defaultLanguage := "en"
  languages := ["de", "en"]
  entries :=
    [⟨⟨"house", []⟩, "House", "house",
        [("de", ⟨[.literal "Haus"], [], false⟩), ("en", ⟨[.literal "House"], [], false⟩)]⟩,
      ⟨⟨"houses", ["count"]⟩, "Houses", "houses",
        [("de", ⟨[.placeholder "count", .literal " houses"], [], true⟩),
          ("en", ⟨[.placeholder "count", .literal " houses"],
            [⟨"count == \"1\"", [.literal "One house"]⟩], false⟩)]⟩]

theorem parse_houseSource (strict : Bool) : parse strict houseSource = .ok houseCatalog := by
  cases strict <;> decide +kernel

end Catalog

end Phrasebook
