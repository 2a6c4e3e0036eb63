/-
This file says for which names a reading refuses an entry. The generated items take names that are
derived from that of the entry, which are no identifiers for few names only, and two entries share
one only if their names differ in underscores and the case of letters.
-/

import Phrasebook.Proofs.Catalog.Failure
import Phrasebook.Proofs.Catalog.Names
import Phrasebook.Proofs.Text.Casing

namespace Phrasebook

open Text Yaml Outcome

/-- Whether a defect lies in the names of generated items. -/
def Defect.isNaming : Defect → Bool
  | .invalidKey _ .unusableName => true
  | .duplicateEntry _ => true
  | _ => false

/-- One of the names that are derived from an identifier is no identifier. -/
def Misnames (name : String) : Prop :=
  isKeyword (snakeCase name) ∨ upperCamelCase name = "" ∨ startsDigit (upperCamelCase name) ∨
    upperCamelCase name = "Self"

theorem EntryKey.namesUsable_iff {key : EntryKey} (identifier : isIdentifier key.name) :
    key.NamesUsable ↔ ¬Misnames key.name := by
  rw [NamesUsable, isIdentifier_upperCamelCase_iff identifier,
    isIdentifier_snakeCase_iff identifier, ← not_or, or_comm, Misnames]

theorem EntryKey.isIdentifier_of_parse {raw : String} {key : EntryKey}
    (parsed : parse raw = .ok key) : isIdentifier key.name :=
  (EntryKey.fault_eq_none_iff.mp (EntryKey.parse_eq_ok_iff.mp parsed).2).1

/-- The key of an entry is read without a look at the names of generated items. -/
theorem EntryKey.parameterFault_ne_unusableName (seen parameters : List String) :
    parameterFault? seen parameters ≠ some .unusableName := by
  induction parameters generalizing seen with
  | nil => simp [parameterFault?]
  | cons parameter rest inductionHypothesis =>
      rw [parameterFault?]
      split
      · simp
      · split
        · simp
        · exact inductionHypothesis (parameter :: seen)

theorem EntryKey.parse_ne_unusableName (raw : String) :
    parse raw ≠ .error (.invalidKey raw .unusableName) := by
  have readable : split raw ≠ .error .unusableName := by
    rw [split]
    split
    · simp
    · simp
    · split <;> simp
  have sound (key : EntryKey) : key.fault? ≠ some .unusableName := by
    rw [fault?]
    split
    · simp
    · exact parameterFault_ne_unusableName [] key.parameters
  intro refused
  rw [parse] at refused
  split at refused
  · rename_i fault isSplit
    cases refused
    exact readable isSplit
  · split at refused
    · rename_i key _ _ fault isFault
      cases refused
      exact sound key isFault
    · cases refused

namespace Pair

variable {strict : Bool} {default : String} {earlier : List Pair} {pair : Pair}

theorem exists_of_unusableName {raw : String}
    (isDefect : pair.EntryDefect strict default earlier (.invalidKey raw .unusableName)) :
    pair.1.text? = some raw ∧ ∃ key, EntryKey.parse raw = .ok key ∧ ¬key.NamesUsable := by
  cases isDefect with
  | unusable isRaw complete unusable => exact ⟨isRaw, _, complete.isKey, unusable⟩
  | draft isRaw isDefect =>
      cases isDefect with
      | key isFault => exact absurd isFault (EntryKey.parse_ne_unusableName _)
      | wording isKey mapping first =>
          obtain ⟨_, wording, _, _, _, isDefect⟩ := first
          cases isDefect

theorem exists_of_duplicateEntry {name : String}
    (isDefect : pair.EntryDefect strict default earlier (.duplicateEntry name)) :
    (∃ key, pair.entryKey? = some key ∧ key.name = name) ∧
      ∃ other ∈ earlier, ¬other.NamesApart pair := by
  cases isDefect with
  | repeated isRaw complete usable isEarlier shared =>
      exact ⟨⟨_, complete.entryKey isRaw, rfl⟩, _, isEarlier, shared⟩
  | draft isRaw isDefect =>
      cases isDefect with
      | wording isKey mapping first =>
          obtain ⟨_, wording, _, _, _, isDefect⟩ := first
          cases isDefect

end Pair

namespace Catalog

variable {strict : Bool} {source : String}

/-- A reading refuses names only for an entry of the document. -/
theorem exists_entryDefect {defect : Defect} (refused : parse strict source = .error defect)
    (naming : defect.isNaming) :
    ∃ pairs default before pair after, Value.load source = .ok (.mapping pairs) ∧
      entryPairs pairs = before ++ pair :: after ∧
        pair.EntryDefect strict default before defect := by
  rw [parse] at refused
  split at refused
  · cases refused
    cases naming
  · rename_i value loaded
    cases value with
    | mapping pairs =>
        obtain noDefault | ⟨default, _, first | ⟨_, collision⟩⟩ := ofValue_eq_error_iff.mp refused
        · rw [defaultOf_eq_missingDefault noDefault] at naming
          cases naming
        · obtain ⟨before, pair, after, split, _, isDefect⟩ := first
          exact ⟨pairs, default, before, pair, after, loaded, split, isDefect⟩
        · obtain ⟨_, language, _, _, _, _, rfl⟩ := collision
          cases naming
    | _ =>
        cases refused
        cases naming

theorem exists_of_unusableName {raw : String}
    (refused : parse strict source = .error (.invalidKey raw .unusableName)) :
    ∃ pairs pair key, Value.load source = .ok (.mapping pairs) ∧ pair ∈ entryPairs pairs ∧
      pair.1.text? = some raw ∧ EntryKey.parse raw = .ok key ∧ isIdentifier key.name ∧
        Misnames key.name := by
  obtain ⟨pairs, default, before, pair, after, loaded, split, isDefect⟩ :=
    exists_entryDefect refused rfl
  obtain ⟨isRaw, key, isKey, unusable⟩ := Pair.exists_of_unusableName isDefect
  have identifier := EntryKey.isIdentifier_of_parse isKey
  rw [EntryKey.namesUsable_iff identifier, not_not] at unusable
  have member : pair ∈ entryPairs pairs := by
    rw [split]
    exact List.mem_append_right _ List.mem_cons_self
  exact ⟨pairs, pair, key, loaded, member, isRaw, isKey, identifier, unusable⟩

theorem exists_of_duplicateEntry {name : String}
    (refused : parse strict source = .error (.duplicateEntry name)) :
    ∃ pairs before pair after key other otherKey,
      Value.load source = .ok (.mapping pairs) ∧ entryPairs pairs = before ++ pair :: after ∧
        pair.entryKey? = some key ∧ key.name = name ∧ other ∈ before ∧
          other.entryKey? = some otherKey ∧ caseless otherKey.name = caseless name := by
  obtain ⟨pairs, default, before, pair, after, loaded, split, isDefect⟩ :=
    exists_entryDefect refused rfl
  obtain ⟨⟨key, isKey, rfl⟩, other, isEarlier, shared⟩ := Pair.exists_of_duplicateEntry isDefect
  simp only [Pair.NamesApart, isKey, Option.some.injEq, not_forall, not_and_or, ne_eq, not_not,
    exists_prop] at shared
  obtain ⟨otherKey, _, isOther, rfl, shared⟩ := shared
  exact ⟨pairs, before, pair, after, key, other, otherKey, loaded, split, isKey, rfl, isEarlier,
    isOther, caseless_eq_of_shared shared.symm⟩

/-- The names of the generated items are derived from that of an entry so that they are usable up
to few cases and forming them again changes nothing. A reading refuses an entry for its derived
names in these cases only, and as a duplicate only where an earlier one has the same name but for
underscores and the case of letters. -/
theorem derived_names :
    (∀ name, isIdentifier name →
      (isIdentifier (snakeCase name) ↔ ¬isKeyword (snakeCase name)) ∧
      (isIdentifier (upperCamelCase name) ↔
        ¬(upperCamelCase name = "" ∨ startsDigit (upperCamelCase name) ∨
          upperCamelCase name = "Self"))) ∧
    (∀ text, snakeCase (snakeCase text) = snakeCase text ∧
      upperCamelCase (upperCamelCase text) = upperCamelCase text) ∧
    (∀ first second,
      snakeCase first = snakeCase second ∨ upperCamelCase first = upperCamelCase second →
        caseless first = caseless second) ∧
    ∀ strict source,
      (∀ raw, parse strict source = .error (.invalidKey raw .unusableName) →
        ∃ pairs pair key, Value.load source = .ok (.mapping pairs) ∧ pair ∈ entryPairs pairs ∧
          pair.1.text? = some raw ∧ EntryKey.parse raw = .ok key ∧ isIdentifier key.name ∧
            Misnames key.name) ∧
      ∀ name, parse strict source = .error (.duplicateEntry name) →
        ∃ pairs before pair after key other otherKey,
          Value.load source = .ok (.mapping pairs) ∧ entryPairs pairs = before ++ pair :: after ∧
            pair.entryKey? = some key ∧ key.name = name ∧ other ∈ before ∧
              other.entryKey? = some otherKey ∧ caseless otherKey.name = caseless name :=
  ⟨fun _ identifier =>
      ⟨isIdentifier_snakeCase_iff identifier, isIdentifier_upperCamelCase_iff identifier⟩,
    fun text => ⟨snakeCase_snakeCase text, upperCamelCase_upperCamelCase text⟩,
    fun _ _ => caseless_eq_of_shared,
    fun _ _ => ⟨fun _ => exists_of_unusableName, fun _ => exists_of_duplicateEntry⟩⟩

/-- A name in two spellings. -/
def helloSource : String :=
  "default: en\nhelloPair:\n  en: Hello\nhello_pair:\n  en: Hello\n"

theorem derived_names_hello :
    isIdentifier "helloPair" ∧ upperCamelCase "helloPair" = "HelloPair" ∧
      parse false helloSource = .error (.duplicateEntry "hello_pair") ∧
      ∃ pairs before pair after key other otherKey,
        Value.load helloSource = .ok (.mapping pairs) ∧ entryPairs pairs = before ++ pair :: after ∧
          pair.entryKey? = some key ∧ key.name = "hello_pair" ∧ other ∈ before ∧
            other.entryKey? = some otherKey ∧ caseless otherKey.name = caseless "hello_pair" := by
  have refused : parse false helloSource = .error (.duplicateEntry "hello_pair") := by
    decide +kernel
  exact ⟨by decide, by decide, refused, (derived_names.2.2.2 false helloSource).2 _ refused⟩

end Catalog

end Phrasebook
