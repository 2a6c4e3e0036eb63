/-
This file says what one command may change on a disk. The main statement is that most commands
change nothing, and that the others change what their work asks for and nothing else.
-/

import Phrasebook.Proofs.Command.Output

namespace Phrasebook

open Phrasebook.Path

namespace Disk

/-- The content of the file at a place. -/
def content? (disk : Disk) (place : Place) : Option ByteArray :=
  match disk.entryAt? place with
  | some (.file content) => some content
  | _ => none

/-- However it ends, a program leaves every disk as it is. -/
def Reading {A : Type} (program : ExceptT Failure (StateM Disk) A) : Prop :=
  ∀ disk : Disk, (disk.perform program).2 = disk

/-- What becomes of an output: it holds the code already, or it cannot be written, or it is. -/
inductive Written (disk : Disk) (path source : String) : Except Failure Bool → Disk → Prop where
  | kept (isRead : disk.readText path = .ok source) : Written disk path source (.ok false) disk
  | failed {changed : Disk} (failure : Failure) (isOther : disk.readText path ≠ .ok source)
      (adds : Adds (parents path) disk changed) : Written disk path source (.error failure) changed
  | replaced {middle changed : Disk} (isOther : disk.readText path ≠ .ok source)
      (adds : Adds (parents path) disk middle)
      (written : middle.writeText path source = .ok changed) :
      Written disk path source (.ok true) changed

section

variable {path source : String} {paths : List String} {disk middle changed : Disk} {place : Place}

theorem content_congr (same : changed.entryAt? place = disk.entryAt? place) :
    changed.content? place = disk.content? place := by
  rw [content?, content?, same]

/-- Directories that are added change the content of no file. -/
theorem Adds.content (adds : Adds paths disk changed) (place : Place) :
    changed.content? place = disk.content? place := by
  obtain same | ⟨absent, _, _, found⟩ := adds.entry place
  · exact content_congr same
  · obtain ⟨_, isDirectory⟩ := find_eq_ok_iff.mp found
    rw [content?, content?, absent, isDirectory]

/-- What differs once an output is written is the output or a directory that contains it. -/
theorem Adds.writeText (adds : Adds (parents path) disk middle)
    (written : middle.writeText path source = .ok changed)
    (differs : changed.entryAt? place ≠ disk.entryAt? place) :
    disk.entryAt? place ≠ some .directory ∧ changed.find path = .ok (place, .file source.toUTF8) ∨
      disk.entryAt? place = none ∧
        ∃ containing ∈ parents path, changed.find containing = .ok (place, .directory) := by
  obtain ⟨target, located, noDirectory, rfl⟩ := writeText_eq_ok written
  by_cases isTarget : place = target
  · subst isTarget
    exact .inl ⟨mt adds.directory noDirectory, find_put noDirectory _ located⟩
  · rw [entryAt_put_of_ne isTarget] at differs
    obtain ⟨absent, containing, member, found⟩ := (adds.entry place).resolve_left differs
    exact .inr ⟨absent, containing, member, find_put_of_ne noDirectory isTarget found⟩

/-- Where a path leads without anything being present, nothing is. -/
theorem entry_of_isPresent (absent : disk.isPresent path = false)
    (located : disk.locate path (parts path.toList) = .ok place) : disk.entryAt? place = none := by
  cases isEntry : disk.entryAt? place with
  | none => rfl
  | some entry =>
      have found := find_eq_ok_iff.mpr ⟨located, isEntry⟩
      rw [isPresent, found] at absent
      cases absent

/-- The settings are looked for in the working directory. -/
theorem eq_of_locate_fileName
    (located : disk.locate Settings.fileName (parts Settings.fileName.toList) = .ok place) :
    place = disk.workingDirectory ++ [Settings.fileName.toList] := by
  have isName : IsName Settings.fileName.toList := ⟨by decide, by decide, by decide⟩
  have relative : isAbsolute Settings.fileName = false := by decide
  have single : parts Settings.fileName.toList = [Settings.fileName.toList] := by decide
  rw [single] at located
  obtain ⟨_, followed⟩ := locate_eq_ok_iff.mp located
  obtain ⟨next, isNext, same⟩ := Outcome.bind_eq_ok_iff.mp followed
  cases same
  rw [(follow_eq_ok isNext).2, enter_of_isName isName, origin, relative]
  rfl

end

section

variable {A B Fault : Type}

theorem Reading.pure (value : A) :
    Reading (Pure.pure value : ExceptT Failure (StateM Disk) A) :=
  fun _ => rfl

theorem Reading.bind {program : ExceptT Failure (StateM Disk) A}
    {next : A → ExceptT Failure (StateM Disk) B} (isProgram : Reading program)
    (isNext : ∀ value, Reading (next value)) : Reading (program >>= next) := by
  intro disk
  have unchanged := isProgram disk
  rw [perform_bind]
  rcases isResult : disk.perform program with ⟨failure | value, middle⟩
  · simpa [isResult] using unchanged
  · rw [isResult] at unchanged
    exact (isNext value middle).trans unchanged

theorem reading_lift {program : StateM Disk A}
    (unchanged : ∀ disk : Disk, (disk.run program).2 = disk) :
    Reading (program : ExceptT Failure (StateM Disk) A) :=
  unchanged

theorem reading_attempt {failure : Fault → Failure} {operation : StateM Disk (Except Fault A)}
    (unchanged : ∀ disk : Disk, (disk.run operation).2 = disk) :
    Reading (Failure.attempt failure operation) := by
  intro disk
  rw [perform_attempt]
  exact unchanged disk

end

end Disk

theorem Context.reading_load (selection : Selection) : Disk.Reading (load selection) := by
  refine .bind (Disk.reading_attempt fun _ => rfl) ?_
  intro start
  refine .bind (Disk.reading_attempt fun disk => Project.run_load disk start) ?_
  intro project
  refine .bind (Disk.reading_lift fun _ => rfl) ?_
  intro directory
  exact .bind (Disk.reading_attempt fun _ => rfl) fun _ => .pure _

namespace Command

open Disk

/-- A command that is not asked to write anything. -/
def isReading : Command → Bool
  | generate _ _ toStdout => toStdout
  | check _ _ => true
  | preview _ _ _ _ => true
  | init => false

theorem reading_run {command : Command} (isReading : command.isReading)
    (environment : Environment) : Reading (command.run environment) := by
  cases command with
  | generate selection additions toStdout =>
      refine .bind (Context.reading_load selection) ?_
      intro context
      split
      · exact .pure _
      · obtain rfl : toStdout = true := isReading
        exact .pure _
  | check selection additions =>
      refine .bind (Context.reading_load selection) ?_
      intro context
      split
      · exact .pure _
      · exact .bind (reading_lift fun _ => rfl) fun _ => .pure _
  | preview selection name locale arguments =>
      refine .bind (Context.reading_load selection) ?_
      intro context
      split
      · exact .pure _
      · dsimp only
        split
        · exact .pure _
        · exact .pure _
  | init => cases isReading

section

variable {disk middle changed : Disk} {path source : String}

theorem perform_writeText (disk : Disk) (path text : String) (failure : FileFault → Failure) :
    disk.perform (Failure.attempt failure (FileAccess.writeText path text)) =
      match disk.writeText path text with
      | .ok changed => (.ok (), changed)
      | .error fault => (.error (failure fault), disk) := by
  rw [perform_attempt, run_writeText]
  cases disk.writeText path text with
  | ok changed => rfl
  | error fault => rfl

theorem written_writeText (isOther : disk.readText path ≠ .ok source)
    (adds : Adds (parents path) disk middle) :
    let program : ExceptT Failure (StateM Disk) Bool := do
      Failure.attempt (.outputNotWritten path) (FileAccess.writeText path source)
      return true
    Written disk path source (middle.perform program).1 (middle.perform program).2 := by
  intro program
  rw [perform_bind, perform_writeText]
  cases isWritten : middle.writeText path source with
  | ok changed => exact .replaced isOther adds isWritten
  | error fault => exact .failed _ isOther adds

/-- An output that does not hold the code is written after the directories that contain it. -/
theorem written_replaceOutput (isOther : disk.readText path ≠ .ok source) :
    Written disk path source (disk.perform (replaceOutput path source)).1
      (disk.perform (replaceOutput path source)).2 := by
  rw [replaceOutput]
  split
  · rename_i parent isParent
    have creates := creating_createDirectories parent disk
    rw [cons_parents_of_parent isParent] at creates
    rw [perform_bind, perform_attempt]
    rcases isResult : disk.run (FileAccess.createDirectories parent) with ⟨fault | _, middle⟩
    · rw [isResult] at creates
      exact .failed _ isOther creates.adds
    · rw [isResult] at creates
      exact written_writeText isOther creates.adds
  · exact written_writeText isOther (.refl _ disk)

theorem written_writeOutput (disk : Disk) (path source : String) :
    Written disk path source (disk.perform (writeOutput path source)).1
      (disk.perform (writeOutput path source)).2 := by
  rw [perform_writeOutput]
  split
  · rename_i isRead
    exact .kept isRead
  · rename_i isOther
    exact written_replaceOutput isOther

end

/-- What a command may do to a disk, by the status that it ends with. -/
inductive Effect (disk : Disk) : Command → Status → Disk → Prop where
  | kept {command : Command} {status : Status}
      (present : command = init → disk.isPresent Settings.fileName → status = .attention) :
      Effect disk command status disk
  | failed {selection : Selection} {additions : Additions} {context : Context} {catalog : Catalog}
      {source : String} {changed : Disk}
      (loaded : disk.perform (Context.load selection) = (.ok context, disk))
      (compiled : context.compile additions = .ok (catalog, source))
      (isOther : disk.readText context.output ≠ .ok source)
      (adds : Adds (parents context.output) disk changed) :
      Effect disk (generate selection additions false) .failure changed
  | replaced {selection : Selection} {additions : Additions} {context : Context}
      {catalog : Catalog} {source : String} {middle changed : Disk}
      (loaded : disk.perform (Context.load selection) = (.ok context, disk))
      (compiled : context.compile additions = .ok (catalog, source))
      (isOther : disk.readText context.output ≠ .ok source)
      (adds : Adds (parents context.output) disk middle)
      (written : middle.writeText context.output source = .ok changed) :
      Effect disk (generate selection additions false) .success changed
  | initialized {changed : Disk} (absent : disk.isPresent Settings.fileName = false)
      (written : disk.writeText Settings.fileName (Settings.toJson {}) = .ok changed) :
      Effect disk init .success changed

section

variable (disk : Disk) (colored : Bool)

theorem effect_runGenerate (selection : Selection) (additions : Additions) :
    Effect disk (generate selection additions false)
      (Ending.ofResult colored (disk.perform (runGenerate selection additions false)).1).status
      (disk.perform (runGenerate selection additions false)).2 := by
  rw [runGenerate, perform_bind]
  rcases loaded : disk.perform (Context.load selection) with ⟨result, middle⟩
  -- what comes after the loading starts on the same disk
  obtain rfl : middle = disk := by simpa [loaded] using Context.reading_load selection disk
  cases result with
  | error failure => exact .kept (by simp)
  | ok context =>
      dsimp only
      split
      · exact .kept (by simp)
      · rename_i catalog source compiled
        have written := written_writeOutput middle context.output source
        rw [if_neg Bool.false_ne_true, perform_bind]
        generalize middle.perform (writeOutput context.output source) = outcome at written ⊢
        obtain ⟨result, changed⟩ := outcome
        cases written with
        | kept _ => exact .kept (by simp)
        | failed _ isOther adds => exact .failed loaded compiled isOther adds
        | replaced isOther adds written => exact .replaced loaded compiled isOther adds written

theorem effect_runInit :
    Effect disk init (Ending.ofResult colored (disk.perform runInit).1).status
      (disk.perform runInit).2 := by
  have isRun : disk.run (FileAccess.isPresent Settings.fileName) =
      (disk.isPresent Settings.fileName, disk) := rfl
  rw [runInit, perform_bind, perform_lift, isRun]
  dsimp only
  split
  · exact .kept fun _ _ => rfl
  · rename_i absent
    rw [perform_bind, perform_writeText]
    cases isWritten : disk.writeText Settings.fileName (Settings.toJson {}) with
    | ok changed => exact .initialized (by simpa using absent) isWritten
    | error fault => exact .kept fun _ present => absurd present absent

/-- Every command does one of these things. -/
theorem effect_execute (environment : Environment) (command : Command) :
    Effect disk command (disk.execute environment colored command).1.status
      (disk.execute environment colored command).2 := by
  by_cases reads : command.isReading
  · have unchanged : (disk.execute environment colored command).2 = disk :=
      reading_run reads environment disk
    rw [unchanged]
    refine .kept ?_
    rintro rfl
    cases reads
  · cases command with
    | generate selection additions toStdout =>
        obtain rfl : toStdout = false := by simpa [isReading] using reads
        exact effect_runGenerate disk colored selection additions
    | check selection additions => simp [isReading] at reads
    | preview selection name locale arguments => simp [isReading] at reads
    | init => exact effect_runInit disk colored

end

/-- What a command leaves as it was, by the code that it ends with. -/
structure Frame (disk : Disk) (command : Command) (code : Nat) (changed : Disk) : Prop where
  reading : command.isReading → changed = disk
  failing : code = 2 → ∀ place, changed.content? place = disk.content? place
  /-- Settings that are present, whatever they are, are kept. -/
  keeping : command = init → ∀ place entry,
    disk.find Settings.fileName = .ok (place, entry) → code = 1 ∧ changed = disk
  initializing : command = init → ∀ place, changed.entryAt? place ≠ disk.entryAt? place →
    code = 0 ∧ place = disk.workingDirectory ++ [Settings.fileName.toList] ∧
      disk.entryAt? place = none ∧ changed.entryAt? place = some (.file (Settings.toJson {}).toUTF8)
  generating : ∀ selection additions, command = generate selection additions false →
    ∀ place, changed.entryAt? place ≠ disk.entryAt? place →
      ∃ context artifacts, disk.perform (Context.load selection) = (.ok context, disk) ∧
        Code.compile context.source (context.options additions) = .ok artifacts ∧
          disk.readText context.output ≠ .ok artifacts.source ∧
            (code = 0 ∧ disk.entryAt? place ≠ some .directory ∧
                changed.find context.output = .ok (place, .file artifacts.source.toUTF8) ∨
              disk.entryAt? place = none ∧ ∃ containing ∈ parents context.output,
                changed.find containing = .ok (place, .directory))

theorem Effect.frame {disk changed : Disk} {command : Command} {status : Status}
    (effect : Effect disk command status changed) : Frame disk command status.code changed := by
  cases effect with
  | kept present =>
      refine ⟨fun _ => rfl, fun _ _ => rfl, ?_, ?_, ?_⟩
      · intro isInit place entry found
        have isPresent : disk.isPresent Settings.fileName := by rw [Disk.isPresent, found]; rfl
        rw [present isInit isPresent]
        exact ⟨rfl, rfl⟩
      · exact fun _ place differs => absurd rfl differs
      · exact fun _ _ _ place differs => absurd rfl differs
  | failed loaded compiled isOther adds =>
      refine ⟨by simp [isReading], fun _ => adds.content, by simp, by simp, ?_⟩
      rintro selection additions ⟨⟩ place differs
      obtain ⟨_, artifacts, isCompiled, rfl⟩ := Context.compile_eq_ok compiled
      exact ⟨_, artifacts, loaded, isCompiled, isOther,
        .inr ((adds.entry place).resolve_left differs)⟩
  | replaced loaded compiled isOther adds written =>
      refine ⟨by simp [isReading], by simp [Status.code], by simp, by simp, ?_⟩
      rintro selection additions ⟨⟩ place differs
      obtain ⟨_, artifacts, isCompiled, rfl⟩ := Context.compile_eq_ok compiled
      refine ⟨_, artifacts, loaded, isCompiled, isOther, ?_⟩
      exact (adds.writeText written differs).imp_left fun isOutput => ⟨rfl, isOutput⟩
  | initialized absent written =>
      obtain ⟨target, located, _, rfl⟩ := writeText_eq_ok written
      have isNew := entry_of_isPresent absent located
      obtain rfl := eq_of_locate_fileName located
      refine ⟨by simp [isReading], by simp [Status.code], ?_, ?_, by simp⟩
      · intro _ place entry found
        rw [Disk.isPresent, found] at absent
        cases absent
      · intro _ place differs
        by_cases same : place = disk.workingDirectory ++ [Settings.fileName.toList]
        · rw [same]
          exact ⟨rfl, rfl, isNew, entryAt_put_self (by simp)⟩
        · exact absurd (entryAt_put_of_ne same) differs

theorem frame_execute (disk : Disk) (environment : Environment) (colored : Bool)
    (command : Command) :
    Frame disk command (disk.execute environment colored command).1.status.code
      (disk.execute environment colored command).2 :=
  (effect_execute disk colored environment command).frame

end Command

end Phrasebook
