/-
This file says which defect of a document a reading reports. The main statement is that it is
that of the first defective entry, whatever follows it.
-/

import Phrasebook.Proofs.Catalog.Fault

namespace Phrasebook

open Text Yaml Outcome

namespace Catalog

/-- Reading fails at an entry, at the names of its draft, or after it. -/
theorem readDrafts_of_entry_eq_error_iff {strict : Bool} {default raw : String}
    {seen : List Draft} {pair : Pair} {rest : List Pair} {defect : Defect}
    (isRaw : pair.1.text? = some raw) (isEntry : raw ≠ defaultField) :
    readDrafts strict default seen (pair :: rest) = .error defect ↔
      pair.DraftDefect strict default raw defect ∨
        ∃ draft, Draft.Reads strict default pair draft ∧
          (draft.checkNames seen = .error defect ∨ draft.checkNames seen = .ok () ∧
            readDrafts strict default (draft :: seen) rest = .error defect) := by
  rw [readDrafts_of_entry isRaw isEntry, bind_eq_error_iff, Draft.ofPair_eq_error_iff]
  apply or_congr_right
  apply exists_congr
  intro draft
  rw [Draft.ofPair_eq_ok_iff pair isRaw]
  apply and_congr_right
  intro _
  rw [bind_eq_error_iff]
  apply or_congr_right
  constructor
  · intro failed
    obtain ⟨_, isNamed, failed⟩ := failed
    obtain refused | ⟨_, _, never⟩ := bind_eq_error_iff.mp failed
    · exact ⟨isNamed, refused⟩
    · cases never
  · intro failed
    exact ⟨(), failed.1, bind_eq_error_iff.mpr (.inl failed.2)⟩

/-- Reading the entries after those seen fails with the defect of the first one that has any. -/
theorem readDrafts_eq_error_iff {strict : Bool} {default : String} {seen : List Draft}
    {earlier pairs : List Pair} {defect : Defect}
    (earlierReads : List.Forall₂ (Draft.Reads strict default) earlier seen.reverse) :
    readDrafts strict default seen pairs = .error defect ↔
      FirstFault (fun before => Pair.EntryDefect strict default (earlier ++ before))
        (entryPairs pairs) defect := by
  induction pairs generalizing seen earlier with
  | nil =>
      apply iff_of_false _ not_firstFault_nil
      intro failed
      cases failed
  | cons pair rest inductionHypothesis =>
      by_cases isDefault : pair.1.text? = some defaultField
      · rw [readDrafts_of_default isDefault, entryPairs_cons_of_default isDefault]
        exact inductionHypothesis earlierReads
      rw [entryPairs_cons_of_entry isDefault, firstFault_cons, List.append_nil]
      cases isRaw : pair.1.text? with
      | none =>
          rw [readDrafts_of_noText isRaw]
          simp [Pair.entryDefect_of_noText_iff isRaw, eq_comm]
      | some raw =>
          have isEntry : raw ≠ defaultField := by
            rintro rfl
            exact isDefault isRaw
          rw [readDrafts_of_entry_eq_error_iff isRaw isEntry]
          -- The draft of the entry is seen by the rest, so the entry counts as an earlier one.
          have later {draft : Draft} (reads : Draft.Reads strict default pair draft) :
              readDrafts strict default (draft :: seen) rest = .error defect ↔
                FirstFault (fun before =>
                  Pair.EntryDefect strict default (earlier ++ pair :: before))
                  (entryPairs rest) defect := by
            have laterReads : List.Forall₂ (Draft.Reads strict default) (earlier ++ [pair])
                (draft :: seen).reverse := by
              rw [List.reverse_cons]
              exact List.rel_append earlierReads (.cons reads .nil)
            simpa using inductionHypothesis laterReads
          constructor
          · intro failed
            obtain isDefect | ⟨draft, reads, refused | ⟨isNamed, failed⟩⟩ := failed
            · exact .inl (.draft isRaw isDefect)
            · exact .inl ((reads.checkNames_eq_error_iff earlierReads).mp refused)
            · exact .inr ⟨(reads.checkNames_eq_ok_iff_sound earlierReads).mp isNamed,
                (later reads).mp failed⟩
          · intro either
            obtain isDefect | ⟨sound, first⟩ := either
            · obtain refused | ⟨draft, reads⟩ := isDefect.draftDefect isRaw
              · exact .inl refused
              · exact .inr ⟨draft, reads,
                  .inl ((reads.checkNames_eq_error_iff earlierReads).mpr isDefect)⟩
            · obtain ⟨draft, reads⟩ := Draft.exists_reads_of_sound isRaw sound
              exact .inr ⟨draft, reads,
                .inr ⟨(reads.checkNames_eq_ok_iff_sound earlierReads).mpr sound,
                  (later reads).mpr first⟩⟩

section

variable {strict : Bool} {default : String} {pairs : List Pair} {drafts : List Draft}
  {defect : Defect}

theorem readDrafts_nil_eq_error_iff :
    readDrafts strict default [] pairs = .error defect ↔
      FirstFault (Pair.EntryDefect strict default) (entryPairs pairs) defect := by
  have none : List.Forall₂ (Draft.Reads strict default) [] [].reverse := .nil
  exact readDrafts_eq_error_iff none

/-- The entries read as drafts exactly where none is defective. -/
theorem faultless_entryPairs_iff :
    Faultless (Pair.EntryDefect strict default) (entryPairs pairs) ↔
      ∃ drafts, readDrafts strict default [] pairs = .ok drafts := by
  simp only [faultless_iff, ← readDrafts_nil_eq_error_iff]
  exact exists_eq_ok_iff.symm

theorem forall₂_of_readDrafts (isRead : readDrafts strict default [] pairs = .ok drafts) :
    List.Forall₂ (Draft.Reads strict default) (entryPairs pairs) drafts :=
  (readDrafts_eq_ok_iff.mp isRead).2.1

end

/-- A language has the method of an earlier one. -/
def Collides (before : List String) (language : String) (defect : Defect) : Prop :=
  Language.methodName language ∈ before.map Language.methodName ∧
    defect = .invalidLanguage language (.collision (Language.methodName language))

theorem checkMethods_eq_error_iff {earlier languages : List String} {defect : Defect} :
    checkMethods (earlier.map Language.methodName).reverse languages = .error defect ↔
      FirstFault (fun before => Collides (earlier ++ before)) languages defect := by
  induction languages generalizing earlier with
  | nil =>
      apply iff_of_false _ not_firstFault_nil
      intro failed
      cases failed
  | cons language rest inductionHypothesis =>
      rw [checkMethods, firstFault_cons, List.append_nil]
      by_cases taken : Language.methodName language ∈ earlier.map Language.methodName
      · simp [Collides, taken, eq_comm]
      · have sound : ∀ other, ¬Collides earlier language other := fun _ collides =>
          taken collides.1
        have further := @inductionHypothesis (earlier ++ [language])
        simp only [List.map_append, List.map_singleton, List.reverse_append,
          List.reverse_singleton, List.singleton_append, List.append_assoc] at further
        have fresh : (List.map Language.methodName earlier).reverse.contains
            (Language.methodName language) = false := by
          simpa using taken
        simp only [fresh, Bool.false_eq_true, if_false, further, sound, false_or,
          not_false_eq_true, implies_true, true_and]

theorem checkMethods_nil_eq_error_iff {languages : List String} {defect : Defect} :
    checkMethods [] languages = .error defect ↔ FirstFault Collides languages defect :=
  @checkMethods_eq_error_iff [] languages defect

theorem ofDrafts_eq_error_iff {strict : Bool} {default : String} {pairs : List Pair}
    {drafts : List Draft} {defect : Defect}
    (each : List.Forall₂ (Draft.Reads strict default) (entryPairs pairs) drafts) :
    ofDrafts default drafts = .error defect ↔
      FirstFault Collides (knownLanguages default pairs) defect := by
  have completes : ∃ entries,
      drafts.mapM (Draft.complete (knownLanguages default pairs) default) = .ok entries := by
    simp only [mapM_eq_ok_iff]
    apply Lists.exists_forall₂
    intro draft member
    obtain ⟨pair, _, reads⟩ := Lists.exists_of_mem_right each member
    obtain ⟨base, _, completed⟩ := reads.complete_eq (knownLanguages default pairs)
    exact ⟨_, completed⟩
  obtain ⟨entries, completed⟩ := completes
  rw [ofDrafts, languagesOf_eq each]
  constructor
  · intro failed
    obtain refused | ⟨_, _, failed⟩ := bind_eq_error_iff.mp failed
    · exact checkMethods_nil_eq_error_iff.mp refused
    · rw [completed] at failed
      cases failed
  · intro first
    exact bind_eq_error_iff.mpr (.inl (checkMethods_nil_eq_error_iff.mpr first))

/-- A mapping is refused for its default language, its first defective entry or, where no entry
is defective, the first of its languages that has the method of an earlier one. -/
theorem ofValue_eq_error_iff {strict : Bool} {pairs : List Pair} {defect : Defect} :
    ofValue strict (.mapping pairs) = .error defect ↔ defaultOf pairs = .error defect ∨
      ∃ default, defaultOf pairs = .ok default ∧
        (FirstFault (Pair.EntryDefect strict default) (entryPairs pairs) defect ∨
          Faultless (Pair.EntryDefect strict default) (entryPairs pairs) ∧
            FirstFault Collides (knownLanguages default pairs) defect) := by
  change (defaultOf pairs >>= _) = _ ↔ _
  rw [bind_eq_error_iff]
  apply or_congr_right
  apply exists_congr
  intro default
  apply and_congr_right
  intro _
  constructor
  · intro failed
    obtain refused | ⟨drafts, isRead, failed⟩ := bind_eq_error_iff.mp failed
    · exact .inl (readDrafts_nil_eq_error_iff.mp refused)
    · exact .inr ⟨faultless_entryPairs_iff.mpr ⟨drafts, isRead⟩,
        (ofDrafts_eq_error_iff (forall₂_of_readDrafts isRead)).mp failed⟩
  · intro either
    obtain first | ⟨sound, collides⟩ := either
    · exact bind_eq_error_iff.mpr (.inl (readDrafts_nil_eq_error_iff.mpr first))
    · obtain ⟨drafts, isRead⟩ := faultless_entryPairs_iff.mp sound
      have failed := (ofDrafts_eq_error_iff (forall₂_of_readDrafts isRead)).mpr collides
      exact bind_eq_error_iff.mpr (.inr ⟨drafts, isRead, failed⟩)

theorem defaultOf_eq_missingDefault {pairs : List Pair} {defect : Defect}
    (refused : defaultOf pairs = .error defect) : defect = .missingDefault := by
  rw [defaultOf] at refused
  split at refused
  · split at refused <;> cases refused
    rfl
  · cases refused
    rfl

end Catalog

end Phrasebook
