/-
This file says where a search for settings stops: at the nearest directory that has some, unless a
repository begins before it.
-/

import Phrasebook.Proofs.Files.Creation
import Phrasebook.Settings.Discovery

namespace Phrasebook.Settings

open Phrasebook.Path

theorem run_findIn_cons (disk : Disk) (directory : String) (containing : List String) :
    disk.run (findIn? (directory :: containing)) =
      if disk.isPresent (join directory fileName) then (some (join directory fileName), disk)
      else if disk.isPresent (join directory repositoryMark) then (none, disk)
      else disk.run (findIn? containing) := by
  rw [findIn?]
  change (if disk.isPresent (join directory fileName) then pure (some (join directory fileName))
    else do
      if ← FileAccess.isPresent (join directory repositoryMark) then pure none
      else findIn? containing : StateM Disk (Option String)) disk = _
  split
  · rfl
  · change (if disk.isPresent (join directory repositoryMark) then pure none
      else findIn? containing : StateM Disk (Option String)) disk = _
    split
    · rfl
    · rfl

/-- The directory is the first one that has settings, and no repository begins before it. -/
def IsNearest (disk : Disk) (directories : List String) (directory : String) : Prop :=
  ∃ nearer further, directories = nearer ++ directory :: further ∧
    disk.isPresent (join directory fileName) ∧
      ∀ other ∈ nearer, ¬disk.isPresent (join other fileName) ∧
        ¬disk.isPresent (join other repositoryMark)

section

variable {disk : Disk} {directory found : String} {directories : List String}

theorem IsNearest.mem (isNearest : IsNearest disk directories found) : found ∈ directories := by
  obtain ⟨nearer, further, rfl, _⟩ := isNearest
  simp

theorem not_isNearest_nil : ¬IsNearest disk [] found := by
  intro isNearest
  cases isNearest.mem

theorem isNearest_cons_iff : IsNearest disk (directory :: directories) found ↔
    (found = directory ∧ disk.isPresent (join directory fileName)) ∨
      (¬disk.isPresent (join directory fileName) ∧
        ¬disk.isPresent (join directory repositoryMark) ∧ IsNearest disk directories found) := by
  constructor
  · intro isNearest
    obtain ⟨nearer, further, isList, present, before⟩ := isNearest
    cases nearer with
    | nil =>
        cases isList
        exact .inl ⟨rfl, present⟩
    | cons first nearer =>
        cases isList
        obtain ⟨⟨noFile, noMark⟩, others⟩ := List.forall_mem_cons.mp before
        exact .inr ⟨noFile, noMark, nearer, further, rfl, present, others⟩
  · intro either
    rcases either with ⟨rfl, present⟩ | ⟨noFile, noMark, nearer, further, rfl, present, before⟩
    · exact ⟨[], directories, rfl, present, by simp⟩
    · exact ⟨directory :: nearer, further, rfl, present,
        List.forall_mem_cons.mpr ⟨⟨noFile, noMark⟩, before⟩⟩

/-- The search stops at the nearest settings. -/
theorem run_findIn_eq_some_iff {path : String} :
    disk.run (findIn? directories) = (some path, disk) ↔
      ∃ directory, IsNearest disk directories directory ∧ path = join directory fileName := by
  induction directories with
  | nil =>
      refine iff_of_false (fun never => by cases never) ?_
      rintro ⟨directory, isNearest, _⟩
      exact not_isNearest_nil isNearest
  | cons directory containing inductionHypothesis =>
      simp only [run_findIn_cons, isNearest_cons_iff]
      by_cases hasFile : disk.isPresent (join directory fileName)
      · rw [if_pos hasFile]
        constructor
        · intro same
          cases same
          exact ⟨directory, .inl ⟨rfl, hasFile⟩, rfl⟩
        · rintro ⟨_, ⟨rfl, _⟩ | ⟨noFile, _⟩, rfl⟩
          · rfl
          · exact absurd hasFile noFile
      · by_cases hasMark : disk.isPresent (join directory repositoryMark)
        · simp [hasFile, hasMark]
        · simp [hasFile, hasMark, inductionHypothesis]

/-- The search has an answer and changes nothing. -/
theorem exists_run_findIn (disk : Disk) (directories : List String) :
    ∃ answer, disk.run (findIn? directories) = (answer, disk) := by
  induction directories with
  | nil => exact ⟨none, rfl⟩
  | cons directory containing inductionHypothesis =>
      rw [run_findIn_cons]
      split
      · exact ⟨_, rfl⟩
      · split
        · exact ⟨_, rfl⟩
        · exact inductionHypothesis

theorem run_findIn_eq_none_iff :
    disk.run (findIn? directories) = (none, disk) ↔
      ∀ directory, ¬IsNearest disk directories directory := by
  obtain ⟨answer, isAnswer⟩ := exists_run_findIn disk directories
  constructor
  · intro isNone directory isNearest
    have isSome := run_findIn_eq_some_iff.mpr ⟨directory, isNearest, rfl⟩
    rw [isNone] at isSome
    cases isSome
  · intro noNearest
    cases answer with
    | none => exact isAnswer
    | some path =>
        obtain ⟨directory, isNearest, _⟩ := run_findIn_eq_some_iff.mp isAnswer
        exact absurd isNearest (noNearest directory)

end

end Phrasebook.Settings
