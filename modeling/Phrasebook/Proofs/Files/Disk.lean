/-
This file says where paths lead on a disk and what the operations that write leave there.
-/

import Mathlib.Tactic.ByContra
import Phrasebook.Proofs.Files.Path
import Phrasebook.Proofs.Outcome
import Phrasebook.Proofs.Text.Bytes

namespace Phrasebook

namespace Disk

open Phrasebook.Path

/-- Where a part leads to from a directory. -/
def enter (place : Place) (part : List Char) : Place :=
  if isIdle part then place
  else if part == ['.', '.'] then place.dropLast
  else place ++ [part]

/-- The place from which a path is followed. -/
def origin (disk : Disk) (path : String) : Place :=
  if isAbsolute path then [] else disk.workingDirectory

/-- The place that a path names if all on its way are directories. -/
def target (disk : Disk) (path : String) : Place :=
  (parts path.toList).foldl enter (disk.origin path)

/-- A place that lies in directories, under names. -/
structure Contained (disk : Disk) (place : Place) : Prop where
  named : ∀ name ∈ place, IsName name
  containing : ∀ outer, outer <+: place → outer ≠ place → disk.entryAt? outer = some .directory

/-- The working directory is a directory, and so are those that contain it. -/
structure Stands (disk : Disk) : Prop where
  contained : disk.Contained disk.workingDirectory
  directory : disk.entryAt? disk.workingDirectory = some .directory

/-- A place to which a path with the parts can lead: if it is no directory, the path ends in its
name. -/
structure Reached (disk : Disk) (parts : List (List Char)) (place : Place) : Prop where
  contained : disk.Contained place
  ending : disk.entryAt? place = some .directory ∨
    ∃ part ∈ parts, IsName part ∧ place.getLast? = some part

section

variable {disk other : Disk} {place next : Place} {part : List Char} {path : String}

@[simp] theorem entryAt_nil : disk.entryAt? [] = some .directory := rfl

theorem entryAt_put_self {entry : FileEntry} (inhabited : place ≠ []) :
    Disk.entryAt? (disk.put place entry) place = some entry := by
  rw [entryAt?, if_neg (by simpa using inhabited), put, List.lookup_cons_self]

theorem entryAt_put_of_ne {entry : FileEntry} {found : Place} (differs : found ≠ place) :
    Disk.entryAt? (disk.put place entry) found = disk.entryAt? found := by
  have isPut : (disk.put place entry).entries.lookup found = disk.entries.lookup found := by
    rw [put, List.lookup_cons, beq_false_of_ne differs]
    exact Lists.lookup_filter_of_ne differs disk.entries
  rw [entryAt?, entryAt?, isPut]

theorem follow_eq_ok (isNext : disk.follow place part = .ok next) :
    disk.entryAt? place = some .directory ∧ next = enter place part := by
  rw [follow] at isNext
  split at isNext
  · cases isNext
  · cases isNext
  · rename_i isDirectory
    refine ⟨isDirectory, ?_⟩
    rw [enter]
    split at isNext
    · rename_i isIdle
      cases isNext
      rw [if_pos isIdle]
    · rename_i isBusy
      rw [if_neg isBusy]
      split at isNext
      · rename_i isUp
        cases isNext
        rw [if_pos isUp]
      · rename_i isDown
        rw [if_neg isDown]
        split at isNext
        · cases isNext
        · cases isNext
          rfl

/-- Where a directory leads to does not depend on the disk. -/
theorem follow_of_directory (isDirectory : disk.entryAt? place = some .directory)
    (isOther : other.entryAt? place = some .directory) :
    disk.follow place part = other.follow place part := by
  rw [follow, follow, isDirectory, isOther]

theorem foldlM_follow_of_directories
    (keeps : ∀ place, disk.entryAt? place = some .directory →
      other.entryAt? place = some .directory)
    {parts : List (List Char)} (followed : parts.foldlM disk.follow place = .ok next) :
    parts.foldlM other.follow place = .ok next := by
  induction parts generalizing place with
  | nil => exact followed
  | cons part rest inductionHypothesis =>
      obtain ⟨middle, isMiddle, further⟩ := Outcome.bind_eq_ok_iff.mp followed
      have isDirectory := (follow_eq_ok isMiddle).1
      rw [follow_of_directory isDirectory (keeps place isDirectory)] at isMiddle
      exact Outcome.bind_eq_ok_iff.mpr ⟨middle, isMiddle, inductionHypothesis further⟩

/-- A path that can be followed at all. -/
def IsUsable (path : String) : Prop :=
  ¬path.toList.contains '\x00' ∧ ¬path.isEmpty ∧ ¬path.utf8ByteSize > pathLimit

theorem locate_eq_ok_iff {parts : List (List Char)} :
    disk.locate path parts = .ok place ↔
      IsUsable path ∧ parts.foldlM disk.follow (disk.origin path) = .ok place := by
  rw [locate, IsUsable]
  split
  · rename_i withNul
    exact iff_of_false (fun never => by cases never) fun both => both.1.1 withNul
  · rename_i noNul
    split
    · rename_i isEmpty
      exact iff_of_false (fun never => by cases never) fun both => both.1.2.1 isEmpty
    · rename_i inhabited
      split
      · rename_i isLong
        exact iff_of_false (fun never => by cases never) fun both => both.1.2.2 isLong
      · rename_i isShort
        exact (and_iff_right ⟨noNul, inhabited, isShort⟩).symm

theorem find_eq_ok_iff {entry : FileEntry} :
    disk.find path = .ok (place, entry) ↔
      disk.locate path (parts path.toList) = .ok place ∧ disk.entryAt? place = some entry := by
  rw [find, Outcome.bind_eq_ok_iff]
  constructor
  · intro found
    obtain ⟨reached, located, isEntry⟩ := found
    split at isEntry
    · cases isEntry
    · rename_i present
      cases isEntry
      exact ⟨located, present⟩
  · intro found
    obtain ⟨located, present⟩ := found
    refine ⟨place, located, ?_⟩
    rw [present]
    rfl

/-- What is read is the text of a file. -/
theorem readText_eq_ok_iff {text : String} :
    disk.readText path = .ok text ↔
      ∃ place, disk.find path = .ok (place, .file text.toUTF8) := by
  rw [readText, Outcome.bind_eq_ok_iff]
  constructor
  · intro isRead
    obtain ⟨⟨place, entry⟩, found, isText⟩ := isRead
    cases entry with
    | directory => cases isText
    | file content =>
        dsimp only at isText
        cases isContent : String.fromUTF8? content with
        | none =>
            rw [isContent] at isText
            cases isText
        | some read =>
            rw [isContent] at isText
            cases isText
            exact ⟨place, by rw [found, fromUTF8?_eq_some_iff.mp isContent]⟩
  · intro isFile
    obtain ⟨place, found⟩ := isFile
    refine ⟨_, found, ?_⟩
    dsimp only
    rw [fromUTF8?_eq_some_iff.mpr rfl]
    rfl

/-- A text can be read exactly where a file has readable content. -/
theorem exists_readText_iff {allowed : ByteArray → Prop} :
    (∃ text, disk.readText path = .ok text ∧ allowed text.toUTF8) ↔
      ∃ place content, disk.find path = .ok (place, .file content) ∧
        (String.fromUTF8? content).isSome ∧ allowed content := by
  constructor
  · intro isText
    obtain ⟨text, isRead, isAllowed⟩ := isText
    obtain ⟨place, found⟩ := readText_eq_ok_iff.mp isRead
    have readable : String.fromUTF8? text.toUTF8 = some text := fromUTF8?_eq_some_iff.mpr rfl
    exact ⟨place, _, found, by rw [readable, Option.isSome_some], isAllowed⟩
  · intro isFile
    obtain ⟨place, content, found, readable, isAllowed⟩ := isFile
    obtain ⟨text, isText⟩ := Option.isSome_iff_exists.mp readable
    rw [fromUTF8?_eq_some_iff.mp isText] at found isAllowed
    exact ⟨text, readText_eq_ok_iff.mpr ⟨place, found⟩, isAllowed⟩

/-- The directories that contain a place in directories are in directories themselves. -/
theorem Contained.dropLast (contained : disk.Contained place)
    (isDirectory : disk.entryAt? place = some .directory) :
    disk.Contained place.dropLast ∧ disk.entryAt? place.dropLast = some .directory := by
  have before := List.dropLast_prefix place
  refine ⟨⟨?_, ?_⟩, ?_⟩
  · exact fun name member => contained.named name (before.mem member)
  · intro outer isPrefix differs
    refine contained.containing outer (isPrefix.trans before) ?_
    rintro rfl
    exact differs (isPrefix.eq_of_length_le before.length_le)
  · by_cases same : place.dropLast = place
    · rw [same, isDirectory]
    · exact contained.containing _ before same

theorem Contained.append (contained : disk.Contained place)
    (isDirectory : disk.entryAt? place = some .directory) (isName : IsName part) :
    disk.Contained (place ++ [part]) := by
  refine ⟨?_, ?_⟩
  · rw [List.forall_mem_append, List.forall_mem_singleton]
    exact ⟨contained.named, isName⟩
  · intro outer isPrefix differs
    obtain same | before := List.prefix_concat_iff.mp isPrefix
    · exact absurd same differs
    · by_cases same : outer = place
      · rw [same, isDirectory]
      · exact contained.containing outer before same

theorem Reached.follow {parts : List (List Char)} (reached : disk.Reached parts place)
    (member : part ∈ parts) (noSlash : '/' ∉ part) (isNext : disk.follow place part = .ok next) :
    disk.Reached parts next := by
  obtain ⟨isDirectory, rfl⟩ := follow_eq_ok isNext
  rw [enter]
  split
  · exact reached
  · rename_i isBusy
    split
    · obtain ⟨contained, ending⟩ := reached.contained.dropLast isDirectory
      exact ⟨contained, .inl ending⟩
    · rename_i isDown
      have isName : IsName part := ⟨noSlash, by simpa using isBusy, by simpa using isDown⟩
      refine ⟨reached.contained.append isDirectory isName, .inr ⟨part, member, isName, ?_⟩⟩
      rw [List.getLast?_append_of_ne_nil _ (List.cons_ne_nil _ _)]
      rfl

theorem Reached.foldlM {all rest : List (List Char)} (reached : disk.Reached all place)
    (within : rest ⊆ all) (noSlash : ∀ part ∈ rest, '/' ∉ part)
    (followed : rest.foldlM disk.follow place = .ok next) :
    disk.Reached all next ∧ next = rest.foldl enter place := by
  induction rest generalizing place with
  | nil =>
      cases followed
      exact ⟨reached, rfl⟩
  | cons part rest inductionHypothesis =>
      obtain ⟨first, further⟩ := List.forall_mem_cons.mp noSlash
      obtain ⟨member, others⟩ := List.cons_subset.mp within
      obtain ⟨middle, isMiddle, followed⟩ := Outcome.bind_eq_ok_iff.mp followed
      rw [List.foldl_cons, ← (follow_eq_ok isMiddle).2]
      exact inductionHypothesis (reached.follow member first isMiddle) others further followed

/-- A path leads to the place that it names. -/
theorem Stands.reached_of_locate (stands : disk.Stands)
    (located : disk.locate path (parts path.toList) = .ok place) :
    disk.Reached (parts path.toList) place ∧ place = disk.target path := by
  obtain ⟨_, followed⟩ := locate_eq_ok_iff.mp located
  have start : disk.Reached (parts path.toList) (disk.origin path) := by
    rw [origin]
    split
    · refine ⟨⟨List.forall_mem_nil _, ?_⟩, .inl rfl⟩
      intro outer isPrefix differs
      exact absurd (List.prefix_nil.mp isPrefix) differs
    · exact ⟨stands.contained, .inl stands.directory⟩
  exact start.foldlM (List.Subset.refl _) (fun part => noSlash_of_mem_parts) followed

/-- A directory is created where a path leads and nothing is present. -/
theorem createDirectory_eq_ok_iff {changed : Disk} :
    disk.createDirectory path = .ok changed ↔
      ∃ place, disk.locate path (parts path.toList) = .ok place ∧ disk.entryAt? place = none ∧
        changed = disk.put place .directory := by
  rw [createDirectory, Outcome.bind_eq_ok_iff]
  constructor
  · intro created
    obtain ⟨place, located, isNew⟩ := created
    split at isNew
    · cases isNew
    · rename_i absent
      cases isNew
      exact ⟨place, located, absent, rfl⟩
  · intro created
    obtain ⟨place, located, absent, rfl⟩ := created
    refine ⟨place, located, ?_⟩
    rw [absent]
    rfl

/-- A directory is created under a name of its path where nothing was present. -/
theorem Stands.createDirectory_eq_ok {changed : Disk} (stands : disk.Stands)
    (created : disk.createDirectory path = .ok changed) :
    ∃ place part, changed = disk.put place .directory ∧ disk.entryAt? place = none ∧
      part ∈ parts path.toList ∧ IsName part ∧ place.getLast? = some part := by
  obtain ⟨place, located, absent, isPut⟩ := createDirectory_eq_ok_iff.mp created
  obtain ⟨reached, _⟩ := stands.reached_of_locate located
  rcases reached.ending with isDirectory | ⟨part, member, isName, isLast⟩
  · rw [absent] at isDirectory
    cases isDirectory
  · exact ⟨place, part, isPut, absent, member, isName, isLast⟩

/-- A file is written where a path leads and no directory is present. -/
theorem writeText_eq_ok {changed : Disk} {text : String}
    (written : disk.writeText path text = .ok changed) :
    ∃ place, disk.locate path (parts path.toList) = .ok place ∧
      disk.entryAt? place ≠ some .directory ∧ changed = disk.put place (.file text.toUTF8) := by
  obtain ⟨place, located, isNew⟩ := Outcome.bind_eq_ok_iff.mp written
  have whole : withoutSlashes (parts path.toList) = parts path.toList := by
    by_contra differs
    simp only [bne_iff_ne.mpr differs] at isNew
    cases isNew
  simp only [whole, bne_self_eq_false, Bool.false_eq_true, if_false] at isNew located
  refine ⟨place, located, ?_⟩
  by_cases isDirectory : disk.entryAt? place = some .directory
  · simp only [isDirectory] at isNew
    cases isNew
  · split at isNew
    · contradiction
    · cases isNew
      exact ⟨isDirectory, rfl⟩

/-- A file is written under a name of its path where no directory was present. -/
theorem Stands.writeText_eq_ok {changed : Disk} {text : String} (stands : disk.Stands)
    (written : disk.writeText path text = .ok changed) :
    ∃ part, changed = disk.put (disk.target path) (.file text.toUTF8) ∧
      disk.locate path (parts path.toList) = .ok (disk.target path) ∧
        disk.entryAt? (disk.target path) ≠ some .directory ∧
          part ∈ parts path.toList ∧ IsName part ∧ (disk.target path).getLast? = some part := by
  obtain ⟨place, located, noDirectory, isPut⟩ := Disk.writeText_eq_ok written
  obtain ⟨reached, rfl⟩ := stands.reached_of_locate located
  rcases reached.ending with never | ⟨part, member, isName, isLast⟩
  · exact absurd never noDirectory
  · exact ⟨part, isPut, located, noDirectory, member, isName, isLast⟩

end

end Disk

end Phrasebook
