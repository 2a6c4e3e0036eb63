/-
This file says what may change on a disk when an output is written: directories are added, and one
file is. What is found through other names stays.
-/

import Phrasebook.Proofs.Files.Creation
import Phrasebook.Settings.Discovery

namespace Phrasebook

open Phrasebook.Path

/-- The names by which settings are found. -/
def Settings.marks : List (List Char) :=
  [fileName, repositoryMark].map String.toList

/-- A path none of whose parts is a name by which settings are found. -/
def Path.Unmarked (path : String) : Prop :=
  ∀ part ∈ parts path.toList, part ∉ Settings.marks

namespace Disk

/-- A place under none of the names by which settings are found. -/
def Unmarked (place : Place) : Prop :=
  ∀ mark ∈ Settings.marks, place.getLast? ≠ some mark

/-- What may become of an entry: a directory may be added, and the target may get another content,
but nothing changes under a name by which settings are found. -/
inductive Change (target place : Place) : Option FileEntry → Option FileEntry → Prop where
  | none (entry : Option FileEntry) : Change target place entry entry
  | directory (unmarked : Unmarked place) : Change target place .none (some .directory)
  | file {entry : Option FileEntry} (unmarked : Unmarked place) (isTarget : place = target)
      (noDirectory : entry ≠ some .directory) (content : ByteArray) :
      Change target place entry (some (.file content))

/-- The disk has changed at most as writing an output to the target changes it. -/
structure Grows (target : Place) (before after : Disk) : Prop where
  workingDirectory : after.workingDirectory = before.workingDirectory
  change : ∀ place, Change target place (before.entryAt? place) (after.entryAt? place)

theorem Change.trans {target place : Place} {first second third : Option FileEntry}
    (before : Change target place first second) (after : Change target place second third) :
    Change target place first third := by
  cases before with
  | none => exact after
  | directory unmarked =>
      cases after with
      | none => exact .directory unmarked
      | file _ _ noDirectory _ => exact absurd rfl noDirectory
  | file unmarked isTarget noDirectory content =>
      cases after with
      | none => exact .file unmarked isTarget noDirectory content
      | file _ _ _ changed => exact .file unmarked isTarget noDirectory changed

namespace Grows

variable {target : Place} {before middle after : Disk}

theorem refl (target : Place) (disk : Disk) : Grows target disk disk :=
  ⟨rfl, fun _ => .none _⟩

theorem trans (first : Grows target before middle) (second : Grows target middle after) :
    Grows target before after :=
  ⟨second.workingDirectory.trans first.workingDirectory,
    fun place => (first.change place).trans (second.change place)⟩

theorem directory (grows : Grows target before after) {place : Place}
    (isDirectory : before.entryAt? place = some .directory) :
    after.entryAt? place = some .directory := by
  have change := grows.change place
  rw [isDirectory] at change
  generalize after.entryAt? place = entry at change
  cases change with
  | none => rfl
  | file _ _ noDirectory _ => exact absurd rfl noDirectory

/-- A file stays a file, with its content unless it is the target. -/
theorem file (grows : Grows target before after) {place : Place} {content : ByteArray}
    (isFile : before.entryAt? place = some (.file content)) :
    ∃ found, after.entryAt? place = some (.file found) ∧ (place ≠ target → found = content) := by
  have change := grows.change place
  rw [isFile] at change
  generalize after.entryAt? place = entry at change
  cases change with
  | none => exact ⟨content, rfl, fun _ => rfl⟩
  | file _ isTarget _ changed => exact ⟨changed, rfl, fun differs => absurd isTarget differs⟩

theorem stands (grows : Grows target before after) (stands : before.Stands) : after.Stands := by
  have keeps : ∀ outer, outer <+: before.workingDirectory → outer ≠ before.workingDirectory →
      after.entryAt? outer = some .directory :=
    fun outer isPrefix differs =>
      grows.directory (stands.contained.containing outer isPrefix differs)
  refine ⟨⟨?_, ?_⟩, ?_⟩
  · rw [grows.workingDirectory]
    exact stands.contained.named
  · rw [grows.workingDirectory]
    exact keeps
  · rw [grows.workingDirectory]
    exact grows.directory stands.directory

end Grows

variable {disk changed : Disk} {path : String}

theorem unmarked_of_getLast (unmarked : Path.Unmarked path) {place : Place} {part : List Char}
    (member : part ∈ parts path.toList) (isLast : place.getLast? = some part) :
    Unmarked place := by
  intro mark isMark same
  rw [isLast, Option.some_inj] at same
  rw [← same] at isMark
  exact unmarked part member isMark

theorem ne_nil_of_getLast {place : Place} {part : List Char}
    (isLast : place.getLast? = some part) : place ≠ [] := by
  rintro rfl
  cases isLast

theorem grows_put {target place : Place} {entry : FileEntry} (inhabited : place ≠ [])
    (change : Change target place (disk.entryAt? place) (some entry)) :
    Grows target disk (disk.put place entry) := by
  refine ⟨rfl, ?_⟩
  intro other
  by_cases same : other = place
  · rw [same, entryAt_put_self inhabited]
    exact change
  · rw [entryAt_put_of_ne same]
    exact .none _

theorem Stands.createDirectory_grows (stands : disk.Stands) (unmarked : Path.Unmarked path)
    (created : disk.createDirectory path = .ok changed) (target : Place) :
    Grows target disk changed := by
  obtain ⟨place, part, rfl, absent, member, _, isLast⟩ := stands.createDirectory_eq_ok created
  refine grows_put (ne_nil_of_getLast isLast) ?_
  rw [absent]
  exact .directory (unmarked_of_getLast unmarked member isLast)

section

variable {target : Place} {before after : Disk}

/-- Directories that are created at unmarked paths are no more than an output may add. -/
theorem Creates.grows {paths : List String} (creates : Creates paths before after)
    (stands : before.Stands) (unmarked : ∀ path ∈ paths, Path.Unmarked path) :
    Grows target before after := by
  induction creates with
  | refl => exact .refl target before
  | tail _ step inductionHypothesis =>
      obtain ⟨path, member, created⟩ := step
      have stillStands := inductionHypothesis.stands stands
      exact inductionHypothesis.trans
        (stillStands.createDirectory_grows (unmarked path member) created target)

end

section

variable {target : Place} {before after : Disk}

theorem Grows.locate (grows : Grows target before after) {place : Place}
    {parts : List (List Char)} (located : before.locate path parts = .ok place) :
    after.locate path parts = .ok place :=
  locate_of_directories grows.workingDirectory (fun _ => grows.directory) located

theorem Grows.isSome_entry (grows : Grows target before after) {place : Place}
    (present : (before.entryAt? place).isSome) : (after.entryAt? place).isSome := by
  obtain ⟨entry, isEntry⟩ := Option.isSome_iff_exists.mp present
  cases entry with
  | directory => rw [grows.directory isEntry, Option.isSome_some]
  | file content =>
      obtain ⟨found, isFile, _⟩ := grows.file isEntry
      rw [isFile, Option.isSome_some]

theorem canonical_eq_ok_iff {start : String} :
    disk.canonical path = .ok start ↔
      ∃ place, disk.locate path (parts path.toList) = .ok place ∧ (disk.entryAt? place).isSome ∧
        start = placeText place := by
  rw [canonical, Outcome.bind_eq_ok_iff]
  constructor
  · intro found
    obtain ⟨⟨place, entry⟩, isFound, same⟩ := found
    obtain ⟨located, present⟩ := find_eq_ok_iff.mp isFound
    cases same
    exact ⟨place, located, by rw [present, Option.isSome_some], rfl⟩
  · intro found
    obtain ⟨place, located, present, rfl⟩ := found
    obtain ⟨entry, isEntry⟩ := Option.isSome_iff_exists.mp present
    exact ⟨(place, entry), find_eq_ok_iff.mpr ⟨located, isEntry⟩, rfl⟩

theorem Grows.canonical (grows : Grows target before after) {start : String}
    (isStart : before.canonical path = .ok start) : after.canonical path = .ok start := by
  obtain ⟨place, located, present, rfl⟩ := canonical_eq_ok_iff.mp isStart
  exact canonical_eq_ok_iff.mpr ⟨place, grows.locate located, grows.isSome_entry present, rfl⟩

/-- A text is read again unless it is at the target. -/
theorem Grows.readText (grows : Grows target before after) (stands : before.Stands)
    (apart : before.target path ≠ target) {text : String}
    (isRead : before.readText path = .ok text) : after.readText path = .ok text := by
  obtain ⟨place, found⟩ := readText_eq_ok_iff.mp isRead
  obtain ⟨located, isFile⟩ := find_eq_ok_iff.mp found
  obtain ⟨_, rfl⟩ := stands.reached_of_locate located
  obtain ⟨content, stillFile, stays⟩ := grows.file isFile
  rw [stays apart] at stillFile
  exact readText_eq_ok_iff.mpr ⟨_, find_eq_ok_iff.mpr ⟨grows.locate located, stillFile⟩⟩

theorem Contained.of_append {place : Place} {name : List Char}
    (contained : disk.Contained (place ++ [name])) :
    disk.Contained place ∧ disk.entryAt? place = some .directory ∧ IsName name := by
  obtain ⟨named, isLast⟩ := List.forall_mem_append.mp contained.named
  have shorter : place ≠ place ++ [name] := by simp
  refine ⟨⟨named, ?_⟩, contained.containing place (List.prefix_append _ _) shorter,
    List.forall_mem_singleton.mp isLast⟩
  intro outer isPrefix differs
  refine contained.containing outer (isPrefix.trans (List.prefix_append _ _)) ?_
  rintro rfl
  have tooLong := isPrefix.length_le
  rw [List.length_append, List.length_singleton] at tooLong
  omega

theorem enter_of_isName {place : Place} {name : List Char} (isName : IsName name) :
    enter place name = place ++ [name] := by
  rw [enter, isName.busy, beq_false_of_ne isName.down]
  rfl

theorem Grows.contained (grows : Grows target before after) {place : Place}
    (contained : before.Contained place) : after.Contained place :=
  ⟨contained.named, fun outer isPrefix differs =>
    grows.directory (contained.containing outer isPrefix differs)⟩

end

end Disk

end Phrasebook
