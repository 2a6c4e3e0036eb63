/-
This file says what the commands find of a project on a disk. The main statement is that they find
the same after an output was written.
-/

import Phrasebook.Command.Run
import Phrasebook.Proofs.Files.Growth
import Phrasebook.Proofs.Settings.Search

namespace Phrasebook

open Phrasebook.Path

/-- How a program that may fail ends on a disk, and the disk that it leaves. -/
def Disk.perform {A : Type} (disk : Disk) (program : ExceptT Failure (StateM Disk) A) :
    Except Failure A × Disk :=
  disk.run program.run

namespace Disk

section

variable {A B Fault : Type} {disk changed : Disk}

theorem run_canonical (path : String) :
    disk.run (FileAccess.canonical path) = (disk.canonical path, disk) := rfl

theorem run_workingDirectory :
    disk.run FileAccess.workingDirectory = (placeText disk.workingDirectory, disk) := rfl

theorem run_readText (path : String) :
    disk.run (FileAccess.readText path) = (disk.readText path, disk) := rfl

theorem run_bind_of {program : StateM Disk A} {value : A}
    (isFirst : disk.run program = (value, changed)) (next : A → StateM Disk B) :
    disk.run (program >>= next) = changed.run (next value) := by
  change (match disk.run program with | (value, middle) => middle.run (next value)) = _
  rw [isFirst]

theorem perform_pure_eq_ok_iff {value result : A} :
    disk.perform (pure value) = (.ok result, changed) ↔ value = result ∧ disk = changed := by
  change (Except.ok value, disk) = (Except.ok result, changed) ↔ _
  simp

theorem perform_bind (program : ExceptT Failure (StateM Disk) A)
    (next : A → ExceptT Failure (StateM Disk) B) :
    disk.perform (program >>= next) =
      match disk.perform program with
      | (.ok value, middle) => middle.perform (next value)
      | (.error failure, middle) => (.error failure, middle) := by
  change (match disk.perform program with
    | (result, middle) => (ExceptT.bindCont next result : StateM Disk _) middle) = _
  rcases disk.perform program with ⟨failure | value, middle⟩
  · rfl
  · rfl

theorem perform_lift (program : StateM Disk A) :
    disk.perform (program : ExceptT Failure (StateM Disk) A) =
      (.ok (disk.run program).1, (disk.run program).2) := rfl

theorem perform_bind_eq_ok_iff {program : ExceptT Failure (StateM Disk) A}
    {next : A → ExceptT Failure (StateM Disk) B} {result : B} :
    disk.perform (program >>= next) = (.ok result, changed) ↔
      ∃ value middle, disk.perform program = (.ok value, middle) ∧
        middle.perform (next value) = (.ok result, changed) := by
  rw [perform_bind]
  rcases disk.perform program with ⟨failure | value, middle⟩
  · simp
  · constructor
    · intro performed
      exact ⟨value, middle, rfl, performed⟩
    · intro steps
      obtain ⟨_, _, same, performed⟩ := steps
      cases same
      exact performed

theorem perform_attempt (failure : Fault → Failure) (operation : StateM Disk (Except Fault A)) :
    disk.perform (Failure.attempt failure operation) =
      ((disk.run operation).1.mapError failure, (disk.run operation).2) := by
  rw [Failure.attempt, perform_bind, perform_lift]
  rcases disk.run operation with ⟨fault | value, middle⟩
  · rfl
  · rfl

theorem perform_attempt_eq_ok_iff {failure : Fault → Failure}
    {operation : StateM Disk (Except Fault A)} {result : A} :
    disk.perform (Failure.attempt failure operation) = (.ok result, changed) ↔
      disk.run operation = (.ok result, changed) := by
  rw [perform_attempt]
  rcases disk.run operation with ⟨fault | value, middle⟩
  · exact iff_of_false (fun never => by cases never) (fun never => by cases never)
  · constructor
    · intro same
      cases same
      rfl
    · intro same
      cases same
      rfl

theorem perform_lift_eq_ok_iff {program : StateM Disk A} {result : A} :
    disk.perform (program : ExceptT Failure (StateM Disk) A) = (.ok result, changed) ↔
      disk.run program = (result, changed) := by
  rw [perform_lift]
  rcases disk.run program with ⟨value, middle⟩
  rw [Prod.mk.injEq, Except.ok.injEq]
  exact Prod.mk.injEq _ _ _ _ ▸ Iff.rfl

end

end Disk

section

variable {target : Place} {before after : Disk}

/-- A program reads the same on both disks and leaves them as they are. -/
def Disk.Agree {A : Type} (before after : Disk) (program : StateM Disk A) : Prop :=
  ∃ value, before.run program = (value, before) ∧ after.run program = (value, after)

theorem Disk.Agree.pure {A : Type} (value : A) :
    Agree before after (Pure.pure value : StateM Disk A) :=
  ⟨value, rfl, rfl⟩

theorem Disk.Agree.bind {A B : Type} {program : StateM Disk A} {next : A → StateM Disk B}
    (first : Agree before after program)
    (second : ∀ value, before.run program = (value, before) → Agree before after (next value)) :
    Agree before after (program >>= next) := by
  obtain ⟨value, onBefore, onAfter⟩ := first
  obtain ⟨result, isBefore, isAfter⟩ := second value onBefore
  exact ⟨result, (run_bind_of onBefore next).trans isBefore,
    (run_bind_of onAfter next).trans isAfter⟩

/-- The text of a place that is present, in directories. -/
def Disk.Names (disk : Disk) (path : String) : Prop :=
  ∃ place, disk.Contained place ∧ (disk.entryAt? place).isSome ∧ path = Disk.placeText place

/-- A directory that contains a place has its own text among the paths that contain the text. -/
theorem Disk.Names.parents {disk : Disk} {path : String} (names : disk.Names path) :
    ∀ directory ∈ path :: Path.parents path, disk.Names directory := by
  obtain ⟨place, contained, present, rfl⟩ := names
  induction place using List.reverseRecOn with
  | nil =>
      rw [Disk.parents_placeText_nil, List.forall_mem_singleton]
      exact ⟨[], contained, present, rfl⟩
  | append_singleton start name inductionHypothesis =>
      obtain ⟨isStart, isDirectory, _⟩ := contained.of_append
      rw [Disk.parents_placeText_append contained.named, List.forall_mem_cons]
      exact ⟨⟨_, contained, present, rfl⟩,
        inductionHypothesis isStart (by rw [isDirectory, Option.isSome_some])⟩

theorem Settings.isName_of_mem_marks :
    ∀ mark ∈ [fileName, repositoryMark], IsName mark.toList := by
  rw [List.forall_mem_cons, List.forall_mem_singleton]
  exact ⟨⟨by decide, by decide, by decide⟩, ⟨by decide, by decide, by decide⟩⟩

/-- On both disks the same is found under the names by which settings are found. -/
def Disk.AgreeIn (before after : Disk) (directory : String) : Prop :=
  ∀ mark ∈ [Settings.fileName, Settings.repositoryMark],
    after.find (join directory mark) = before.find (join directory mark)

theorem Disk.isPresent_congr {first second : Disk} {path : String}
    (same : second.find path = first.find path) :
    second.isPresent path = first.isPresent path := by
  rw [isPresent, isPresent, same]

theorem Disk.readText_congr {first second : Disk} {path : String}
    (same : second.find path = first.find path) :
    second.readText path = first.readText path := by
  rw [readText, readText, same]

end

namespace Settings

variable {before after : Disk}

theorem agree_findIn {directories : List String}
    (same : ∀ directory ∈ directories, before.AgreeIn after directory) :
    before.Agree after (findIn? directories) := by
  induction directories with
  | nil => exact .pure none
  | cons directory containing inductionHypothesis =>
      obtain ⟨first, further⟩ := List.forall_mem_cons.mp same
      have sameFile := Disk.isPresent_congr (first fileName (by simp))
      have sameMark := Disk.isPresent_congr (first repositoryMark (by simp))
      unfold Disk.Agree
      rw [run_findIn_cons, run_findIn_cons, sameFile, sameMark]
      split
      · exact ⟨_, rfl, rfl⟩
      · split
        · exact ⟨_, rfl, rfl⟩
        · exact inductionHypothesis further

theorem agree_read {path : String} (same : after.readText path = before.readText path) :
    before.Agree after (read path) := by
  have isText : before.Agree after (FileAccess.readText path) := by
    refine ⟨before.readText path, rfl, ?_⟩
    rw [← same]
    rfl
  refine isText.bind ?_
  intro result _
  split
  · exact .pure _
  · split
    · exact .pure _
    · split
      · exact .pure _
      · exact .pure _

end Settings

variable {target : Place} {before after : Disk}

/-- The same project is found where its settings are. -/
theorem Project.agree_load {start : String}
    (same : ∀ directory ∈ start :: parents start, before.AgreeIn after directory) :
    before.Agree after (Project.load start) := by
  refine (Settings.agree_findIn same).bind ?_
  intro file isFile
  split
  · exact .pure _
  · obtain ⟨directory, isNearest, isPath⟩ := Settings.run_findIn_eq_some_iff.mp isFile
    have sameText := Disk.readText_congr
      (same directory isNearest.mem Settings.fileName (by simp))
    rw [isPath]
    refine (Settings.agree_read sameText).bind ?_
    intro result _
    split
    · exact .pure _
    · exact .pure _

theorem Project.run_load (disk : Disk) (start : String) :
    (disk.run (Project.load start)).2 = disk := by
  have agree : disk.Agree disk (Project.load start) :=
    Project.agree_load fun _ _ _ _ => rfl
  obtain ⟨_, isLoaded, _⟩ := agree
  rw [isLoaded]

namespace Context

/-- What is loaded is read from the disk, which stays as it is. -/
theorem load_eq_ok_iff {disk changed : Disk} {selection : Selection} {context : Context} :
    disk.perform (load selection) = (.ok context, changed) ↔
      changed = disk ∧ ∃ start project, disk.canonical selection.path = .ok start ∧
        disk.run (Project.load start) = (.ok project, disk) ∧
          context.settings = project.settings ∧
            context.input = relativeTo (Disk.placeText disk.workingDirectory)
              (selection.input.getD (join project.root project.settings.input)) ∧
            context.output = relativeTo (Disk.placeText disk.workingDirectory)
              (selection.output.getD (join project.root project.settings.output)) ∧
            disk.readText context.input = .ok context.source := by
  simp only [load, Disk.perform_bind_eq_ok_iff, Disk.perform_attempt_eq_ok_iff,
    Disk.perform_lift_eq_ok_iff, Disk.perform_pure_eq_ok_iff, Disk.run_canonical,
    Disk.run_workingDirectory, Disk.run_readText, Prod.mk.injEq]
  constructor
  · intro steps
    obtain ⟨start, _, ⟨isStart, rfl⟩, project, middle, isProject, _, _, ⟨rfl, rfl⟩, source, _,
      ⟨isSource, rfl⟩, rfl, rfl⟩ := steps
    have same := (Project.run_load disk start).symm.trans (congrArg Prod.snd isProject)
    subst same
    exact ⟨rfl, start, project, isStart, isProject, rfl, rfl, rfl, isSource⟩
  · intro loaded
    obtain ⟨rfl, start, project, isStart, isProject, isSettings, isInput, isOutput, isSource⟩ :=
      loaded
    rw [isInput] at isSource
    refine ⟨start, _, ⟨isStart, rfl⟩, project, _, isProject, _, _, ⟨rfl, rfl⟩, _, _,
      ⟨isSource, rfl⟩, ?_, rfl⟩
    rw [← isInput, ← isOutput, ← isSettings]

end Context

end Phrasebook
