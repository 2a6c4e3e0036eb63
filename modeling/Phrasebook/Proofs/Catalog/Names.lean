/-
This file says what the checks of a reading make sure of the names in a catalog.
-/

import Phrasebook.Proofs.Catalog.Content

namespace Phrasebook

open Text Yaml

namespace EntryKey

/-- Parameters are identifiers that differ from each other and from those already seen. -/
theorem parameterFault_eq_none_iff {seen parameters : List String} :
    parameterFault? seen parameters = none ↔
      (∀ parameter ∈ parameters, isIdentifier parameter) ∧ parameters.Nodup ∧
        ∀ parameter ∈ parameters, parameter ∉ seen := by
  induction parameters generalizing seen with
  | nil => simp [parameterFault?]
  | cons parameter rest inductionHypothesis =>
      rw [parameterFault?, List.nodup_cons, List.forall_mem_cons, List.forall_mem_cons]
      by_cases valid : isIdentifier parameter
      · by_cases repeated : parameter ∈ seen
        · simp [valid, repeated]
        · simp only [valid, repeated, List.contains_iff_mem, inductionHypothesis, List.mem_cons,
            not_or, Bool.not_true, Bool.false_eq_true, if_false, not_false_eq_true, true_and]
          constructor
          · intro valid
            obtain ⟨identifiers, distinct, fresh⟩ := valid
            have absent : parameter ∉ rest := fun member => (fresh parameter member).1 rfl
            exact ⟨identifiers, ⟨absent, distinct⟩, fun other member => (fresh other member).2⟩
          · intro valid
            obtain ⟨identifiers, ⟨absent, distinct⟩, fresh⟩ := valid
            refine ⟨identifiers, distinct, ?_⟩
            intro other member
            have differs : other ≠ parameter := by
              intro same
              rw [same] at member
              exact absent member
            exact ⟨differs, fresh other member⟩
      · simp [valid]

theorem fault_eq_none_iff {key : EntryKey} :
    key.fault? = none ↔ isIdentifier key.name ∧
      (∀ parameter ∈ key.parameters, isIdentifier parameter) ∧ key.parameters.Nodup := by
  rw [fault?]
  by_cases identifier : isIdentifier key.name
  · simp [identifier, parameterFault_eq_none_iff]
  · simp [identifier]

theorem parse_eq_ok_iff {raw : String} {key : EntryKey} :
    parse raw = .ok key ↔ split raw = .ok key ∧ key.fault? = none := by
  rw [parse]
  cases split raw with
  | error fault => simp
  | ok found =>
      dsimp only
      constructor
      · intro parsed
        split at parsed
        · cases parsed
        · rename_i isFault
          cases parsed
          exact ⟨rfl, isFault⟩
      · rintro ⟨isFound, isFault⟩
        cases isFound
        rw [isFault]

/-- The parameters of a key are identifiers, each once. -/
theorem parameters_of_parse {raw : String} {key : EntryKey} (parsed : parse raw = .ok key) :
    (∀ parameter ∈ key.parameters, isIdentifier parameter) ∧ key.parameters.Nodup :=
  (fault_eq_none_iff.mp (parse_eq_ok_iff.mp parsed).2).2

end EntryKey

/-- What holds of the names of an entry. -/
structure Entry.WellNamed (entry : Entry) : Prop where
  variantName : entry.variantName = upperCamelCase entry.name
  functionName : entry.functionName = snakeCase entry.name
  variant : isIdentifier entry.variantName
  function : isIdentifier entry.functionName
  parameters : ∀ parameter ∈ entry.parameters, isIdentifier parameter
  distinct : entry.parameters.Nodup

namespace Catalog

/-- What holds of the names of a catalog. -/
structure WellNamed (catalog : Catalog) : Prop where
  entries : ∀ entry ∈ catalog.entries, entry.WellNamed
  apart : catalog.entries.Pairwise fun first second =>
    first.variantName ≠ second.variantName ∧ first.functionName ≠ second.functionName
  languages : ∀ language ∈ catalog.languages, Language.check language = .ok ()
  methods : (catalog.languages.map Language.methodName).Nodup

theorem Reads.wellNamed {strict : Bool} {pairs : List Pair} {drafts : List Draft}
    {catalog : Catalog} (reads : Reads strict pairs drafts catalog) : catalog.WellNamed := by
  refine ⟨?_, reads.pairwise_names, ?_, reads.methods⟩
  · intro entry member
    obtain ⟨draft, isDraft, completed⟩ := Lists.exists_of_mem_right reads.entries member
    obtain ⟨pair, _, readsDraft⟩ := Lists.exists_of_mem_right reads.each isDraft
    obtain ⟨base, _, isComplete⟩ := readsDraft.complete_eq catalog.languages
    cases isComplete.symm.trans completed
    obtain ⟨identifiers, distinct⟩ := EntryKey.parameters_of_parse readsDraft.key
    obtain ⟨variant, function⟩ := reads.usable draft isDraft
    exact ⟨rfl, rfl, variant, function, identifiers, distinct⟩
  · intro language known
    rcases reads.mem_languages_iff.mp known with isDefault | isWritten
    · rw [isDefault]
      exact (defaultOf_eq_ok_iff.mp reads.default).1
    · obtain ⟨pair, isPair, isPlain⟩ := List.mem_flatMap.mp isWritten
      obtain ⟨draft, _, readsDraft⟩ := Lists.exists_of_mem_left reads.each isPair
      obtain ⟨⟨_, text⟩, isText, rfl⟩ := List.mem_map.mp isPlain
      obtain ⟨wording, isWording, isFound⟩ := List.mem_filterMap.mp isText
      obtain ⟨written, _, found, isKey, _, _, checked⟩ :=
        Lists.exists_of_mem_left readsDraft.wordings isWording
      rw [Pair.plain?_eq_some_iff.mp isFound] at isKey
      cases written
      cases isKey
      exact checked

/-- Entries are found by their names. -/
theorem WellNamed.entry_eq {catalog : Catalog} (wellNamed : catalog.WellNamed) {entry : Entry}
    (member : entry ∈ catalog.entries) : catalog.entry? entry.name = some entry := by
  apply Lists.find?_of_pairwise _ member (beq_self_eq_true entry.name)
  apply wellNamed.apart.imp_of_mem
  intro first second isFirst isSecond apart same
  obtain ⟨sameFirst, sameSecond⟩ := same
  apply apart.1
  rw [(wellNamed.entries first isFirst).variantName,
    (wellNamed.entries second isSecond).variantName, eq_of_beq sameFirst, eq_of_beq sameSecond]

end Catalog

end Phrasebook
