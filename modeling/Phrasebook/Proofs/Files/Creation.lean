/-
This file says how directories are created. The main statement is that creating the directories of a
path adds directories at that path and at those that contain it, and changes nothing else.
-/

import Mathlib.Logic.Relation
import Phrasebook.Proofs.Files.Disk

namespace Phrasebook.Disk

open Phrasebook.Path

/-- What a program gives on a disk, and the disk that it leaves. -/
def run {A : Type} (disk : Disk) (program : StateM Disk A) : A × Disk :=
  program disk

/-- Directories at some of the paths are created one after the other. -/
def Creates (paths : List String) : Disk → Disk → Prop :=
  Relation.ReflTransGen fun before after => ∃ path ∈ paths, before.createDirectory path = .ok after

/-- Directories at some of the paths were added, and nothing else has changed. -/
structure Adds (paths : List String) (before after : Disk) : Prop where
  workingDirectory : after.workingDirectory = before.workingDirectory
  entry : ∀ place, after.entryAt? place = before.entryAt? place ∨
    before.entryAt? place = none ∧ ∃ path ∈ paths, after.find path = .ok (place, .directory)

/-- However it ends, a program only creates directories at some of the paths. -/
def Creating {A : Type} (paths : List String) (program : StateM Disk A) : Prop :=
  ∀ disk : Disk, Creates paths disk (disk.run program).2

section

variable {path : String} {paths : List String} {before middle after : Disk}

/-- A path that leads somewhere leads there still when directories are kept. -/
theorem locate_of_directories {first second : Disk}
    (same : second.workingDirectory = first.workingDirectory)
    (keeps : ∀ place, first.entryAt? place = some .directory →
      second.entryAt? place = some .directory)
    {place : Place} {parts : List (List Char)} (located : first.locate path parts = .ok place) :
    second.locate path parts = .ok place := by
  obtain ⟨usable, followed⟩ := locate_eq_ok_iff.mp located
  have sameOrigin : second.origin path = first.origin path := by rw [origin, origin, same]
  rw [locate_eq_ok_iff, sameOrigin]
  exact ⟨usable, foldlM_follow_of_directories keeps followed⟩

theorem Adds.directory (adds : Adds paths before after) {place : Place}
    (isDirectory : before.entryAt? place = some .directory) :
    after.entryAt? place = some .directory := by
  obtain same | ⟨absent, _⟩ := adds.entry place
  · rw [same, isDirectory]
  · simp [isDirectory] at absent

theorem Adds.refl (paths : List String) (disk : Disk) : Adds paths disk disk :=
  ⟨rfl, fun _ => .inl rfl⟩

/-- What was found stays where it is. -/
theorem Adds.find (adds : Adds paths before after) {place : Place} {entry : FileEntry}
    (found : before.find path = .ok (place, entry)) : after.find path = .ok (place, entry) := by
  obtain ⟨located, present⟩ := find_eq_ok_iff.mp found
  rw [find_eq_ok_iff]
  refine ⟨locate_of_directories adds.workingDirectory (fun _ => adds.directory) located, ?_⟩
  obtain same | ⟨absent, _⟩ := adds.entry place
  · rw [same, present]
  · simp [present] at absent

theorem Adds.trans (first : Adds paths before middle) (second : Adds paths middle after) :
    Adds paths before after := by
  refine ⟨second.workingDirectory.trans first.workingDirectory, ?_⟩
  intro place
  obtain same | ⟨absent, path, member, found⟩ := first.entry place
  · rw [← same]
    exact second.entry place
  · exact .inr ⟨absent, path, member, second.find found⟩

/-- What is put where no directory is present keeps all directories. -/
theorem directory_put {place : Place} (noDirectory : before.entryAt? place ≠ some .directory)
    (entry : FileEntry) (found : Place) (isDirectory : before.entryAt? found = some .directory) :
    Disk.entryAt? (before.put place entry) found = some .directory := by
  rw [entryAt_put_of_ne, isDirectory]
  rintro rfl
  exact noDirectory isDirectory

/-- An entry that is put where a path leads is found there. -/
theorem find_put {place : Place} (noDirectory : before.entryAt? place ≠ some .directory)
    (entry : FileEntry) (located : before.locate path (parts path.toList) = .ok place) :
    (before.put place entry).find path = .ok (place, entry) := by
  have inhabited : place ≠ [] := by
    rintro rfl
    simp at noDirectory
  have sameStart : (before.put place entry).workingDirectory = before.workingDirectory := rfl
  exact find_eq_ok_iff.mpr
    ⟨locate_of_directories sameStart (directory_put noDirectory entry) located,
      entryAt_put_self inhabited⟩

/-- What was found elsewhere is found as before. -/
theorem find_put_of_ne {place found : Place} {entry other : FileEntry}
    (noDirectory : before.entryAt? place ≠ some .directory) (differs : found ≠ place)
    (isFound : before.find path = .ok (found, other)) :
    (before.put place entry).find path = .ok (found, other) := by
  obtain ⟨located, present⟩ := find_eq_ok_iff.mp isFound
  have sameStart : (before.put place entry).workingDirectory = before.workingDirectory := rfl
  rw [find_eq_ok_iff, entryAt_put_of_ne differs]
  exact ⟨locate_of_directories sameStart (directory_put noDirectory entry) located, present⟩

theorem adds_of_createDirectory (member : path ∈ paths)
    (created : before.createDirectory path = .ok after) : Adds paths before after := by
  obtain ⟨place, located, absent, rfl⟩ := createDirectory_eq_ok_iff.mp created
  refine ⟨rfl, ?_⟩
  intro found
  by_cases same : found = place
  · subst same
    exact .inr ⟨absent, path, member, find_put (by simp [absent]) _ located⟩
  · exact .inl (entryAt_put_of_ne same)

theorem Creates.adds (creates : Creates paths before after) : Adds paths before after := by
  induction creates with
  | refl => exact .refl paths before
  | tail _ step inductionHypothesis =>
      obtain ⟨path, member, created⟩ := step
      exact inductionHypothesis.trans (adds_of_createDirectory member created)

end

section

variable {A B : Type} {path : String} {paths more : List String}

theorem Creating.pure (value : A) : Creating paths (Pure.pure value : StateM Disk A) :=
  fun _ => .refl

theorem Creating.bind {program : StateM Disk A} {next : A → StateM Disk B}
    (isProgram : Creating paths program) (isNext : ∀ value, Creating paths (next value)) :
    Creating paths (program >>= next) :=
  fun disk => (isProgram disk).trans (isNext _ _)

theorem Creating.mono {program : StateM Disk A} (creating : Creating paths program)
    (within : paths ⊆ more) : Creating more program := by
  intro disk
  refine Relation.ReflTransGen.mono ?_ _ _ (creating disk)
  intro before after step
  obtain ⟨path, member, created⟩ := step
  exact ⟨path, within member, created⟩

theorem creating_createDirectory (member : path ∈ paths) :
    Creating paths (FileAccess.createDirectory path : StateM Disk (Except FileFault Unit)) := by
  intro disk
  change Creates paths disk (update (·.createDirectory path) disk).2
  rw [update]
  split
  · rename_i created
    exact .single ⟨path, member, created⟩
  · exact .refl

theorem creating_settle (path : String) (result : Except FileFault Unit) :
    Creating paths
      (FileAccess.createAll.settle path result : StateM Disk (Except FileFault Unit)) := by
  rw [FileAccess.createAll.settle.eq_def]
  split
  · exact .pure _
  · exact fun _ => .refl

theorem creating_createAll (paths : List String) :
    Creating paths (FileAccess.createAll paths : StateM Disk (Except FileFault Unit)) := by
  induction paths with
  | nil => exact .pure _
  | cons path containing inductionHypothesis =>
      have isFirst : path ∈ path :: containing := List.mem_cons_self
      -- the directory is tried before and after those that contain it
      rw [FileAccess.createAll]
      split
      · exact .pure _
      · refine .bind (creating_createDirectory isFirst) ?_
        intro result
        split
        · exact .pure _
        · refine .bind (inductionHypothesis.mono (List.subset_cons_self _ _)) ?_
          intro result
          split
          · exact .pure _
          · exact .bind (creating_createDirectory isFirst) (creating_settle path)
        · exact creating_settle path _

theorem creating_createDirectories (path : String) :
    Creating (path :: parents path)
      (FileAccess.createDirectories path : StateM Disk (Except FileFault Unit)) :=
  creating_createAll _

end

end Phrasebook.Disk
