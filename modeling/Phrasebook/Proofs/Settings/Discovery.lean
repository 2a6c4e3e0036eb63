/-
This file says which settings file is found from a directory. The main statement is that it is the
nearest one on the way up, unless a repository begins before it, and that relative paths are taken
from where it lies.
-/

import Phrasebook.Proofs.Command.Freshness
import Phrasebook.Proofs.Files.Climb

namespace Phrasebook

open Phrasebook.Path

namespace Project

variable {disk : Disk} {start : String}

theorem run_load_of_none (isNone : disk.run (Settings.find? start) = (none, disk)) :
    disk.run (load start) = (.ok ⟨{}, start, false⟩, disk) := by
  rw [load, Disk.run_bind_of isNone]
  rfl

theorem run_load_of_some {path root : String}
    (isSome : disk.run (Settings.find? start) = (some path, disk))
    (isRoot : parent? path = some root) :
    disk.run (load start) =
      ((disk.run (Settings.read path)).1.map (⟨·, root, true⟩), disk) := by
  have unchanged : disk.Agree disk (Settings.read path) := Settings.agree_read rfl
  obtain ⟨result, isRead, _⟩ := unchanged
  rw [load, Disk.run_bind_of isSome]
  change disk.run (Settings.read path >>= _) = _
  rw [Disk.run_bind_of isRead, isRead]
  cases result with
  | error fault => rfl
  | ok settings =>
      rw [isRoot]
      rfl

end Project

namespace Settings

/-- What is found from a start and loaded, where the directories lead up from it. -/
structure Discovers (disk : Disk) (start : String) (directories : List String) : Prop where
  found : ∀ path, disk.run (find? start) = (some path, disk) ↔
    ∃ directory, IsNearest disk directories directory ∧ path = join directory fileName
  missed : disk.run (find? start) = (none, disk) ↔
    ∀ directory, ¬IsNearest disk directories directory
  /-- Relative paths are taken from the nearest directory. -/
  loaded : ∀ directory, IsNearest disk directories directory →
    ∃ root, Same root directory ∧ (disk.Names start → root = directory) ∧
      (∀ path, disk.target (join root path) = disk.target (join directory path)) ∧
      disk.run (Project.load start) =
        ((disk.run (read (join directory fileName))).1.map (⟨·, root, true⟩), disk)
  usual : (∀ directory, ¬IsNearest disk directories directory) →
    disk.run (Project.load start) = (.ok ⟨{}, start, false⟩, disk)

/-- From an absolute start there is one way up, and the nearest settings on it are found. -/
theorem climb_discovers {start : String} (absolute : isAbsolute start) :
    ∃ directories, (∀ climb, Climbs start climb ↔ climb = directories) ∧
      ∀ disk : Disk, Discovers disk start directories := by
  refine ⟨start :: parents start, fun climb => climbs_iff absolute, fun disk => ?_⟩
  refine ⟨fun path => run_findIn_eq_some_iff, run_findIn_eq_none_iff, ?_, ?_⟩
  · intro directory isNearest
    have isName := isName_of_mem_marks fileName (by simp)
    have isAbsolute := (climbs_parents absolute).absolute directory isNearest.mem
    obtain ⟨root, isRoot, same⟩ := exists_parent_join isAbsolute isName
    have isFound := run_findIn_eq_some_iff.mpr ⟨directory, isNearest, rfl⟩
    refine ⟨root, same, ?_, ?_, Project.run_load_of_some isFound isRoot⟩
    · intro names
      obtain ⟨place, contained, _, rfl⟩ := names.parents directory isNearest.mem
      have named : ∀ part ∈ place ++ [fileName.toList], IsName part :=
        List.forall_mem_append.mpr ⟨contained.named, List.forall_mem_singleton.mpr isName⟩
      rw [Disk.join_placeText contained.named isName, parent?,
        Disk.parents_placeText_append named] at isRoot
      injection isRoot with isRoot
      exact isRoot.symm
    · intro path
      exact Disk.target_eq_of_same (same.join path) disk
  · intro noNearest
    exact Project.run_load_of_none (run_findIn_eq_none_iff.mpr noNearest)

theorem climb_discovers_house :
    isAbsolute "/house/gen" ∧ Climbs "/house/gen" ["/house/gen", "/house", "/"] ∧
      Discovers Command.houseDisk "/house/gen" ["/house/gen", "/house", "/"] := by
  have absolute : isAbsolute "/house/gen" := by decide
  have isParents : parents "/house/gen" = ["/house", "/"] := by decide
  have climb := climbs_parents absolute
  rw [isParents] at climb
  obtain ⟨directories, climbs, discovers⟩ := climb_discovers absolute
  rw [← (climbs _).mp climb] at discovers
  exact ⟨absolute, climb, discovers Command.houseDisk⟩

end Settings

end Phrasebook
