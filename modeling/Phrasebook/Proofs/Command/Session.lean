/-
This file follows the files of a disk over any number of runs of the program. The main statement is
that each run changes only what its command may, so that a file whose content differs in the end was
written by a run that succeeded.
-/

import Phrasebook.Proofs.Command.Effect

namespace Phrasebook

/-- A run of the program: the directory in which it starts, its surroundings and its words. -/
structure Invocation where
  directory : Place
  environment : Environment
  colored : Bool
  words : List String

namespace Invocation

open Phrasebook.Path

section

variable (invocation : Invocation) (disk : Disk)

/-- The command that the words ask for. -/
def command? : Option Command :=
  match CommandLine.read invocation.words with
  | .ok command? => command?
  | .error _ => none

/-- The disk on which the program starts. -/
def start : Disk :=
  { disk with workingDirectory := invocation.directory }

def outcome : Except UsageNotice Ending × Disk :=
  (invocation.start disk).run
    (runWords invocation.environment invocation.colored invocation.words)

/-- The code with which the program ends. -/
def code : Nat :=
  match (invocation.outcome disk).1 with
  | .ok ending => ending.status.code
  | .error notice => if notice.isFailure then 2 else 0

/-- The disk that the program leaves. -/
def result : Disk :=
  (invocation.outcome disk).2

/-- What a run leaves as it was. Where no command is asked for, that is everything. -/
structure Frame : Prop where
  idle : invocation.command? = none → invocation.result disk = invocation.start disk
  commanded : ∀ command, invocation.command? = some command →
    Command.Frame (invocation.start disk) command (invocation.code disk) (invocation.result disk)

/-- A run that succeeds writes a file: its output, or settings where there was nothing. -/
inductive Writes (place : Place) : Prop where
  | output {selection : Selection} {additions : Additions} {context : Context}
      {artifacts : Code.Artifacts}
      (asked : invocation.command? = some (.generate selection additions false))
      (succeeded : invocation.code disk = 0)
      (loaded : (invocation.start disk).perform (Context.load selection) =
        (.ok context, invocation.start disk))
      (compiled : Code.compile context.source (context.options additions) = .ok artifacts)
      (isOther : (invocation.start disk).readText context.output ≠ .ok artifacts.source)
      (written : (invocation.result disk).find context.output =
        .ok (place, .file artifacts.source.toUTF8))
  | settings (asked : invocation.command? = some .init) (succeeded : invocation.code disk = 0)
      (isSettings : place = invocation.directory ++ [Settings.fileName.toList])
      (absent : disk.entryAt? place = none)
      (written : Disk.entryAt? (invocation.result disk) place =
        some (.file (Settings.toJson {}).toUTF8))

end

/-- The files are the same from every directory. -/
theorem content_start (invocation : Invocation) (disk : Disk) (place : Place) :
    (invocation.start disk).content? place = disk.content? place :=
  rfl

variable {invocation : Invocation} {disk : Disk}

theorem result_of_idle (idle : invocation.command? = none) :
    invocation.result disk = invocation.start disk := by
  rw [command?] at idle
  rw [result, outcome, runWords]
  split at idle
  · rename_i isRead
    rw [isRead, idle]
    rfl
  · rename_i isRead
    rw [isRead]
    rfl

theorem outcome_of_command {command : Command} (asked : invocation.command? = some command) :
    invocation.outcome disk =
      ((invocation.start disk).execute invocation.environment invocation.colored command).map
        .ok id := by
  rw [command?] at asked
  split at asked
  · rename_i isRead
    rw [outcome, runWords, isRead, asked]
    rfl
  · cases asked

theorem frame (invocation : Invocation) (disk : Disk) : invocation.Frame disk := by
  refine ⟨result_of_idle, ?_⟩
  intro command asked
  rw [code, result, outcome_of_command asked]
  exact Command.frame_execute _ _ _ command

/-- Where a run changes the content of a file, it has written the file. -/
theorem Frame.writes (frame : invocation.Frame disk) {place : Place}
    (differs : (invocation.result disk).content? place ≠ disk.content? place) :
    invocation.Writes disk place := by
  rw [← content_start invocation disk] at differs
  have isChanged := mt Disk.content_congr differs
  cases asked : invocation.command? with
  | none => exact absurd (by rw [frame.idle asked]) differs
  | some command =>
      have framed := frame.commanded command asked
      have writes : ¬command.isReading := fun reads => differs (by rw [framed.reading reads])
      cases command with
      | generate selection additions toStdout =>
          obtain rfl : toStdout = false := by simpa [Command.isReading] using writes
          obtain ⟨context, artifacts, loaded, compiled, isOther, isChange⟩ :=
            framed.generating selection additions rfl place isChanged
          rcases isChange with ⟨succeeded, _, written⟩ | ⟨absent, _, _, found⟩
          · exact .output asked succeeded loaded compiled isOther written
          · -- a new directory has no content, as what was missing had none
            obtain ⟨_, isDirectory⟩ := Disk.find_eq_ok_iff.mp found
            rw [Disk.content?, Disk.content?, absent, isDirectory] at differs
            exact absurd rfl differs
      | check selection additions => simp [Command.isReading] at writes
      | preview selection name locale arguments => simp [Command.isReading] at writes
      | init =>
          obtain ⟨succeeded, isSettings, absent, written⟩ :=
            framed.initializing rfl place isChanged
          exact .settings asked succeeded isSettings absent written

end Invocation

namespace Disk

/-- The disk after some runs of the program, one after the other. -/
def after (disk : Disk) (invocations : List Invocation) : Disk :=
  invocations.foldl (fun disk invocation => invocation.result disk) disk

theorem after_append_singleton (disk : Disk) (invocations : List Invocation)
    (invocation : Invocation) :
    disk.after (invocations ++ [invocation]) = invocation.result (disk.after invocations) := by
  simp [after]

/-- Every run changes only what its command may, and a file whose content differs in the end has the
content that the last run which wrote it gave it. -/
theorem frame_after (disk : Disk) (invocations : List Invocation) :
    (∀ earlier invocation later, invocations = earlier ++ invocation :: later →
      invocation.Frame (disk.after earlier)) ∧
    ∀ place, (disk.after invocations).content? place ≠ disk.content? place →
      ∃ earlier invocation later, invocations = earlier ++ invocation :: later ∧
        invocation.Writes (disk.after earlier) place ∧
          (disk.after invocations).content? place =
            (invocation.result (disk.after earlier)).content? place := by
  refine ⟨fun earlier invocation _ _ => invocation.frame (disk.after earlier), ?_⟩
  intro place differs
  induction invocations using List.reverseRecOn with
  | nil => exact absurd rfl differs
  | append_singleton before last inductionHypothesis =>
      rw [after_append_singleton] at differs ⊢
      by_cases same : (last.result (disk.after before)).content? place =
          (disk.after before).content? place
      · -- the last run leaves the file to an earlier one
        rw [same] at differs ⊢
        obtain ⟨earlier, invocation, later, rfl, writes, isContent⟩ := inductionHypothesis differs
        exact ⟨earlier, invocation, later ++ [last], by simp, writes, isContent⟩
      · exact ⟨before, last, [], rfl, (last.frame _).writes same, rfl⟩

/-- The settings that one run writes stop the next one. -/
example :
    let invocation : Invocation := ⟨[], fun _ => none, false, ["init"]⟩
    invocation.code {} = 0 ∧ invocation.code (Disk.after {} [invocation]) = 1 := by
  decide +kernel

end Disk

end Phrasebook
