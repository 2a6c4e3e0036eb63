/-
This file says which pairs read as drafts and what the drafts then hold.
-/

import Phrasebook.Proofs.Catalog.Document
import Phrasebook.Proofs.Catalog.Template
import Phrasebook.Proofs.Lists
import Phrasebook.Proofs.Outcome

namespace Phrasebook

open Text Yaml

/-- A strict reading succeeds where every name in parentheses is a parameter. -/
theorem Template.read_eq_ok_iff {strict : Bool} {key text : String} {parameters : List String}
    {template : Template} :
    Template.read strict key parameters text = .ok template ↔
      (strict = true → Template.undeclared parameters text = []) ∧
        template = Template.ofText parameters text := by
  cases strict with
  | false =>
      simp only [Template.read, Bool.false_eq_true, if_false, false_implies, true_and,
        Except.ok.injEq]
      exact eq_comm
  | true =>
      simp only [Template.read, if_true, forall_const, Template.ofTextStrict]
      cases Template.undeclared parameters text with
      | nil =>
          simp only [Except.ok.injEq, true_and]
          exact eq_comm
      | cons parameter rest => simp

theorem LanguageKey.parse_eq_ok_iff {entry raw : String} {key : LanguageKey} :
    LanguageKey.parse entry raw = .ok key ↔ LanguageKey.split raw = .ok key := by
  rw [LanguageKey.parse]
  cases LanguageKey.split raw <;> simp

theorem Language.check_eq_ok_iff {code : String} :
    Language.check code = .ok () ↔ Language.fault? code = none := by
  rw [Language.check]
  cases Language.fault? code <;> simp

/-- A checked code is well formed, and its method has a name of its own. -/
theorem Language.isCode_of_check {language : String} (checked : Language.check language = .ok ()) :
    Language.isCode language.toList ∧ Language.methodName language ∉ Language.reservedNames ∧
      isKeyword (Language.methodName language) = false := by
  have valid := Language.check_eq_ok_iff.mp checked
  rw [Language.fault?] at valid
  split at valid
  · cases valid
  · rename_i wellFormed
    split at valid
    · cases valid
    · rename_i noKeyword
      split at valid
      · cases valid
      · rename_i free
        exact ⟨by simpa using wellFormed, by simpa using free, by simpa using noKeyword⟩

namespace WrittenText

/-- What a pair must be to be read as a wording. -/
def Reads (strict : Bool) (parameters : List String) (pair : Pair) (written : WrittenText) :
    Prop :=
  ∃ text, pair.wording? = some (written.key, text) ∧
    written.template = Template.ofText parameters text ∧
    (strict = true → Template.undeclared parameters text = []) ∧
    Language.check written.key.language = .ok ()

theorem ofPair_eq_ok_iff {strict : Bool} {rawKey : String} {parameters : List String}
    {pair : Pair} {written : WrittenText} :
    ofPair strict rawKey parameters pair = .ok written ↔
      Reads strict parameters pair written := by
  rw [ofPair, Reads, Pair.wording?]
  cases pair.1.text? with
  | none => simp [throw, throwThe, MonadExceptOf.throw]
  | some raw =>
      cases scalarText? pair.2 with
      | none => simp [throw, throwThe, MonadExceptOf.throw]
      | some text =>
          simp only [Outcome.bind_eq_ok_iff, Template.read_eq_ok_iff,
            LanguageKey.parse_eq_ok_iff]
          constructor
          · intro succeeded
            obtain ⟨template, ⟨declared, same⟩, key, isKey, ⟨⟩, checked, result⟩ := succeeded
            cases result
            exact ⟨text, by rw [isKey]; rfl, same, declared, checked⟩
          · intro reads
            obtain ⟨found, isWording, same, declared, checked⟩ := reads
            cases isKey : LanguageKey.split raw with
            | error fault => simp [isKey, Except.toOption] at isWording
            | ok key =>
                simp only [isKey, Except.toOption, Option.map_some, Option.some.injEq,
                  Prod.mk.injEq] at isWording
                obtain ⟨sameKey, sameText⟩ := isWording
                subst sameText
                subst sameKey
                exact ⟨_, ⟨declared, rfl⟩, _, rfl, (), checked, by cases written; cases same; rfl⟩

theorem plain_of_reads {strict : Bool} {parameters : List String} {pair : Pair}
    {written : WrittenText} (reads : Reads strict parameters pair written) :
    written.plain? = pair.plain?.map fun (language, text) =>
      (language, Template.ofText parameters text) := by
  obtain ⟨text, isWording, same, _, _⟩ := reads
  rw [plain?, Pair.plain?, isWording, same]
  cases written.key <;> rfl

theorem conditional_of_reads {strict : Bool} {parameters : List String} {pair : Pair}
    {written : WrittenText} (reads : Reads strict parameters pair written) :
    written.conditional? = pair.conditional?.map fun (language, condition, text) =>
      (language, ⟨condition, Template.ofText parameters text⟩) := by
  obtain ⟨text, isWording, same, _, _⟩ := reads
  rw [conditional?, Pair.conditional?, isWording, same]
  cases written.key <;> rfl

end WrittenText

namespace Draft

variable {strict : Bool} {default : String} {parameters : List String} {pair : Pair}
  {draft : Draft}

section Wordings

variable (wordings : List.Forall₂ (WrittenText.Reads strict parameters) pair.wordings
  draft.wordings)

include wordings

theorem plain_eq :
    draft.plain = pair.plainTexts.map fun (language, text) =>
      (language, Template.ofText parameters text) :=
  Lists.filterMap_of_forall₂ wordings fun _ _ => WrittenText.plain_of_reads

theorem conditionals_eq :
    draft.conditionals = pair.conditionalTexts.map fun (language, condition, text) =>
      (language, ⟨condition, Template.ofText parameters text⟩) :=
  Lists.filterMap_of_forall₂ wordings fun _ _ => WrittenText.conditional_of_reads

/-- The base text of a language is its first plain text. -/
theorem base_eq (language : String) :
    draft.base? language =
      (pair.plainTexts.lookup language).map (Template.ofText parameters) := by
  rw [base?, plain_eq wordings, Lists.lookup_map_value]

theorem conditionalsOf_eq (language : String) :
    draft.conditionalsOf language = pair.conditionalsOf parameters language := by
  rw [conditionalsOf, conditionals_eq wordings, List.filter_map, List.map_map]
  rfl

theorem plainLanguages_eq : draft.plain.map Prod.fst = pair.plainLanguages := by
  rw [plain_eq wordings, List.map_map]
  rfl

theorem conditionalLanguages_eq :
    draft.conditionals.map Prod.fst = pair.conditionalLanguages := by
  rw [conditionals_eq wordings, List.map_map]
  rfl

theorem isSome_base_iff (language : String) :
    (draft.base? language).isSome ↔ language ∈ pair.plainLanguages := by
  rw [base?, Lists.isSome_lookup_iff, plainLanguages_eq wordings]

/-- The default language needs a plain text, and so does every language with a condition. -/
theorem checkComplete_eq_ok_iff :
    draft.checkComplete default = .ok () ↔
      default ∈ pair.plainLanguages ∧ pair.conditionalLanguages ⊆ pair.plainLanguages := by
  rw [checkComplete, ← isSome_base_iff wordings, ← conditionalLanguages_eq wordings]
  cases draft.base? default with
  | none => simp
  | some base =>
      simp only [Option.isNone_some, Bool.false_eq_true, if_false, Option.isSome_some, true_and]
      cases orphan : draft.conditionals.find? fun conditional =>
          (draft.base? conditional.1).isNone with
      | none =>
          have complete := List.find?_eq_none.mp orphan
          apply iff_of_true rfl
          intro language member
          obtain ⟨conditional, isConditional, same⟩ := List.mem_map.mp member
          rw [← isSome_base_iff wordings, ← same, Option.isSome_iff_ne_none]
          simpa using complete conditional isConditional
      | some conditional =>
          apply iff_of_false (by simp)
          intro complete
          have isConditional := List.mem_of_find?_eq_some orphan
          have present := complete (List.mem_map.mpr ⟨conditional, isConditional, rfl⟩)
          rw [← isSome_base_iff wordings] at present
          have missing := List.find?_some orphan
          simp [Option.isNone_iff_eq_none.mp missing] at present

end Wordings

/-- What a pair must be to be read as a draft. -/
structure Reads (strict : Bool) (default : String) (pair : Pair) (draft : Draft) : Prop where
  rawKey : pair.1.text? = some draft.rawKey
  key : EntryKey.parse draft.rawKey = .ok draft.key
  mapping : pair.2 = .mapping pair.wordings
  wordings : List.Forall₂ (WrittenText.Reads strict draft.key.parameters) pair.wordings
    draft.wordings
  base : default ∈ pair.plainLanguages
  bases : pair.conditionalLanguages ⊆ pair.plainLanguages

theorem ofPair_eq_ok_iff (pair : Pair) {raw : String} (isRaw : pair.1.text? = some raw) :
    ofPair strict default raw pair.2 = .ok draft ↔ Reads strict default pair draft := by
  have readAll (parameters : List String) :
      (fun (item : Pair) written => WrittenText.ofPair strict raw parameters item = .ok written) =
        WrittenText.Reads strict parameters := by
    funext item written
    exact propext WrittenText.ofPair_eq_ok_iff
  rw [ofPair, Outcome.bind_eq_ok_iff]
  constructor
  · intro read
    obtain ⟨key, isKey, succeeded⟩ := read
    cases isMapping : pair.2 with
    | mapping pairs =>
        simp only [isMapping, Outcome.bind_eq_ok_iff] at succeeded
        obtain ⟨wordings, readWordings, ⟨⟩, complete, result⟩ := succeeded
        cases result
        obtain rfl : pair.wordings = pairs := by rw [Pair.wordings, isMapping, Value.pairs]
        rw [Outcome.mapM_eq_ok_iff, readAll] at readWordings
        obtain ⟨base, bases⟩ := (checkComplete_eq_ok_iff readWordings).mp complete
        exact ⟨isRaw, isKey, isMapping, readWordings, base, bases⟩
    | _ => simp [isMapping, throw, throwThe, MonadExceptOf.throw] at succeeded
  · intro reads
    obtain rfl : draft.rawKey = raw := Option.some.inj (reads.rawKey.symm.trans isRaw)
    have readWordings : pair.wordings.mapM (WrittenText.ofPair strict draft.rawKey
        draft.key.parameters) = .ok draft.wordings := by
      rw [Outcome.mapM_eq_ok_iff, readAll]
      exact reads.wordings
    have complete := (checkComplete_eq_ok_iff reads.wordings).mpr ⟨reads.base, reads.bases⟩
    refine ⟨draft.key, reads.key, ?_⟩
    rw [reads.mapping]
    simp only [Outcome.bind_eq_ok_iff]
    exact ⟨draft.wordings, readWordings, (), complete, rfl⟩

theorem Reads.entryKey (reads : Reads strict default pair draft) :
    pair.entryKey? = some draft.key := by
  rw [Pair.entryKey?, reads.rawKey, Option.bind_some, reads.key]
  rfl

end Draft

end Phrasebook
