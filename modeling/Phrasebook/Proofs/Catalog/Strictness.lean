/-
This file compares strict and lenient readings. The main statement is that they differ only where
a text mentions an undeclared name, and that the strict one then reports the first such name.
-/

import Phrasebook.Proofs.Catalog.Failure

namespace Phrasebook

open Text Yaml Outcome

namespace Pair

/-- The text of a pair mentions a name that is no parameter; the first such name counts. -/
def UndeclaredIn (parameters : List String) (pair : Pair) (name : String) : Prop :=
  ∃ text, scalarText? pair.2 = some text ∧ Template.FirstUndeclared parameters text name

/-- The raw key of an entry and the undeclared name in the first of its texts that has any. -/
def Undeclared (pair : Pair) (found : String × String) : Prop :=
  pair.1.text? = some found.1 ∧ ∃ key, EntryKey.parse found.1 = .ok key ∧
    FirstFault (fun _ => UndeclaredIn key.parameters) pair.wordings found.2

variable {parameters : List String} {raw : String} {pair : Pair} {defect : Defect}

/-- A pair that only a strict reading refuses has an undeclared name. -/
theorem wordingDefect_strict_iff
    (sound : ∀ other, ¬pair.WordingDefect false raw parameters other) :
    pair.WordingDefect true raw parameters defect ↔
      ∃ name, pair.UndeclaredIn parameters name ∧ defect = .undeclaredParameter raw name := by
  have lenient {text : String} (isFalse : false = true) : Template.Declared parameters text := by
    cases isFalse
  constructor
  · intro isDefect
    cases isDefect with
    | key noText => exact absurd (.key noText) (sound _)
    | value isRaw noText => exact absurd (.value isRaw noText) (sound _)
    | undeclared isRaw isText isStrict first => exact ⟨_, ⟨_, isText, first⟩, rfl⟩
    | language isRaw isText declared isFault =>
        exact absurd (.language isRaw isText lenient isFault) (sound _)
    | code isRaw isText declared isKey isFault =>
        exact absurd (.code isRaw isText lenient isKey isFault) (sound _)
  · intro undeclared
    obtain ⟨name, ⟨text, isText, first⟩, rfl⟩ := undeclared
    cases isRaw : pair.1.text? with
    | none => exact absurd (.key isRaw) (sound _)
    | some raw => exact .undeclared isRaw isText rfl first

variable {default : String} {earlier : List Pair}

/-- An entry that only a strict reading refuses has an undeclared name. -/
theorem entryDefect_strict_iff
    (sound : ∀ other, ¬pair.EntryDefect false default earlier other) :
    pair.EntryDefect true default earlier defect ↔
      ∃ found, pair.Undeclared found ∧ defect = .undeclaredParameter found.1 found.2 := by
  cases isRaw : pair.1.text? with
  | none => exact absurd (.key isRaw) (sound _)
  | some raw =>
  obtain ⟨draft, reads⟩ := Draft.exists_reads_of_sound isRaw sound
  obtain rfl : draft.rawKey = raw := Option.some.inj (reads.rawKey.symm.trans isRaw)
  have lenient := reads.isComplete
  have sameKey {key : EntryKey} (isKey : EntryKey.parse draft.rawKey = .ok key) :
      draft.key = key :=
    Except.ok.inj (reads.key.symm.trans isKey)
  have first_iff {other : Defect} :
      FirstFault (fun _ => WordingDefect true draft.rawKey draft.key.parameters) pair.wordings
          other ↔
        ∃ name, FirstFault (fun _ => UndeclaredIn draft.key.parameters) pair.wordings name ∧
          other = .undeclaredParameter draft.rawKey name := by
    apply firstFault_map_iff
    intro before wording after split other
    apply wordingDefect_strict_iff
    apply lenient.wordings
    rw [split]
    exact List.mem_append_right before List.mem_cons_self
  constructor
  · intro isDefect
    cases isDefect with
    | key noText =>
        rw [isRaw] at noText
        cases noText
    | draft isText isDefect =>
        cases isRaw.symm.trans isText
        cases isDefect with
        | key isFault =>
            rw [reads.key] at isFault
            cases isFault
        | value isKey noMapping => exact absurd lenient.mapping noMapping
        | wording isKey mapping first =>
            obtain rfl := sameKey isKey
            obtain ⟨name, isFirst, rfl⟩ := first_iff.mp first
            exact ⟨(draft.rawKey, name), ⟨isRaw, draft.key, isKey, isFirst⟩, rfl⟩
        | missing written noBase => exact absurd lenient.base noBase
        | orphan written base first =>
            have missing := List.find?_some first
            have isConditional := lenient.bases (List.mem_of_find?_eq_some first)
            simp [isConditional] at missing
    | unusable isText complete unusable =>
        cases isRaw.symm.trans isText
        obtain rfl := sameKey complete.isKey
        exact absurd (.unusable isRaw lenient unusable) (sound _)
    | repeated isText complete usable isEarlier shared =>
        cases isRaw.symm.trans isText
        obtain rfl := sameKey complete.isKey
        exact absurd (.repeated isRaw lenient usable isEarlier shared) (sound _)
  · intro undeclared
    obtain ⟨⟨raw, name⟩, ⟨isText, key, isKey, isFirst⟩, rfl⟩ := undeclared
    cases isRaw.symm.trans isText
    obtain rfl := sameKey isKey
    exact .draft isRaw (.wording isKey lenient.mapping (first_iff.mpr ⟨name, isFirst, rfl⟩))

end Pair

theorem WrittenText.Reads.lenient {parameters : List String} {pair : Pair}
    {written : WrittenText} (reads : Reads true parameters pair written) :
    Reads false parameters pair written := by
  obtain ⟨text, isWording, same, _, checked⟩ := reads
  exact ⟨text, isWording, same, by simp, checked⟩

theorem Draft.Reads.lenient {default : String} {pair : Pair} {draft : Draft}
    (reads : Reads true default pair draft) : Reads false default pair draft :=
  ⟨reads.rawKey, reads.key, reads.mapping, reads.wordings.imp fun _ _ wording => wording.lenient,
    reads.base, reads.bases⟩

namespace Catalog

/-- A lenient reading finds in a document what a strict one finds. -/
theorem Reads.lenient {pairs : List Pair} {drafts : List Draft} {catalog : Catalog}
    (reads : Reads true pairs drafts catalog) : Reads false pairs drafts catalog :=
  ⟨reads.default, reads.texts, reads.each.imp fun _ _ draft => draft.lenient, reads.usable,
    reads.apart, reads.languages, reads.methods, reads.entries⟩

theorem ofValue_lenient {value : Value} {catalog : Catalog}
    (accepted : ofValue true value = .ok catalog) : ofValue false value = .ok catalog := by
  obtain ⟨pairs, drafts, isMapping, reads⟩ := ofValue_eq_ok_iff.mp accepted
  exact ofValue_eq_ok_iff.mpr ⟨pairs, drafts, isMapping, reads.lenient⟩

/-- Where a lenient reading accepts, a strict one refuses just the first undeclared name. -/
theorem ofValue_strict_eq_error_iff {pairs : List Pair} {catalog : Catalog} {defect : Defect}
    (accepted : ofValue false (.mapping pairs) = .ok catalog) :
    ofValue true (.mapping pairs) = .error defect ↔ ∃ found,
      FirstFault (fun _ => Pair.Undeclared) (entryPairs pairs) found ∧
        defect = .undeclaredParameter found.1 found.2 := by
  obtain ⟨_, drafts, ⟨⟩, reads⟩ := ofValue_eq_ok_iff.mp accepted
  have isDefault := reads.default
  have never (other : Defect) : ¬ofValue false (.mapping pairs) = .error other := by
    rw [accepted]
    exact nofun
  have sound : Faultless (Pair.EntryDefect false catalog.defaultLanguage) (entryPairs pairs) := by
    apply faultless_iff.mpr
    intro other first
    exact never other (ofValue_eq_error_iff.mpr (.inr ⟨_, isDefault, .inl first⟩))
  have distinct (other : Defect) :
      ¬FirstFault Collides (knownLanguages catalog.defaultLanguage pairs) other := by
    intro collides
    exact never other (ofValue_eq_error_iff.mpr (.inr ⟨_, isDefault, .inr ⟨sound, collides⟩⟩))
  have strictly : ofValue true (.mapping pairs) = .error defect ↔
      FirstFault (Pair.EntryDefect true catalog.defaultLanguage) (entryPairs pairs) defect := by
    simp [ofValue_eq_error_iff, isDefault, distinct]
  rw [strictly]
  apply firstFault_map_iff
  intro before pair after split other
  exact Pair.entryDefect_strict_iff (sound before pair after split)

/-- A strict reading of any value differs from a lenient one only where a text mentions an
undeclared name. It then reports the first one, in the order of the entries and their texts. -/
theorem ofValue_strict (value : Value) :
    (∀ catalog, ofValue true value = .ok catalog → ofValue false value = .ok catalog) ∧
    (∀ defect, ofValue false value = .error defect →
      ∃ other, ofValue true value = .error other) ∧
    ∀ catalog, ofValue false value = .ok catalog →
      (Faultless (fun _ => Pair.Undeclared) (entryPairs value.pairs) →
        ofValue true value = .ok catalog) ∧
      ∀ defect, ofValue true value = .error defect ↔ ∃ rawKey parameter,
        FirstFault (fun _ => Pair.Undeclared) (entryPairs value.pairs) (rawKey, parameter) ∧
          defect = .undeclaredParameter rawKey parameter := by
  refine ⟨fun _ => ofValue_lenient, ?_, ?_⟩
  · intro defect refused
    cases strictly : ofValue true value with
    | error other => exact ⟨other, rfl⟩
    | ok catalog =>
        rw [ofValue_lenient strictly] at refused
        cases refused
  · intro catalog accepted
    obtain ⟨pairs, _, rfl, _⟩ := ofValue_eq_ok_iff.mp accepted
    have refused_iff {defect : Defect} :=
      @ofValue_strict_eq_error_iff pairs catalog defect accepted
    constructor
    · intro declared
      cases strictly : ofValue true (.mapping pairs) with
      | error other =>
          obtain ⟨found, first, _⟩ := refused_iff.mp strictly
          exact absurd first (faultless_iff.mp declared found)
      | ok other =>
          rw [ofValue_lenient strictly] at accepted
          exact accepted
    · intro defect
      rw [refused_iff, Prod.exists]
      rfl

/-- A text misspells the parameter of its entry. -/
def misspelledValue : Value :=
  .mapping [(.string "default", .string "en"),
    (.string "hello(name)", .mapping [(.string "en", .string "Hello, (nmae)!")])]

def misspelledCatalog : Catalog where
  defaultLanguage := "en"
  languages := ["en"]
  entries := [⟨⟨"hello", ["name"]⟩, "Hello", "hello",
    [("en", ⟨[.literal "Hello, (nmae)!"], [], false⟩)]⟩]

theorem misspelled_strict :
    ofValue false misspelledValue = .ok misspelledCatalog ∧
      FirstFault (fun _ => Pair.Undeclared) (entryPairs misspelledValue.pairs)
        ("hello(name)", "nmae") := by
  have accepted : ofValue false misspelledValue = .ok misspelledCatalog := by
    decide +kernel
  have refused :
      ofValue true misspelledValue = .error (.undeclaredParameter "hello(name)" "nmae") := by
    decide +kernel
  obtain ⟨_, _, first, same⟩ := (((ofValue_strict misspelledValue).2.2 _ accepted).2 _).mp refused
  cases same
  exact ⟨accepted, first⟩

end Catalog

end Phrasebook
