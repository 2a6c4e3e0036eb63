/-
This file finds the settings of a project in its directory or above it.
-/

import Phrasebook.Files.Basic
import Phrasebook.Settings.Basic

namespace Phrasebook

/-- The settings with the directory from which their relative paths are taken. -/
structure Project where
  settings : Settings
  root : String
  fromFile : Bool
  deriving Repr, DecidableEq

inductive ProjectFault where
  | unreadable (fault : FileFault)
  | malformed (path : String)
  | invalid (fault : SettingsFault)
  deriving Repr, DecidableEq

def ProjectFault.message : ProjectFault → String
  | unreadable fault => fault.message
  | malformed path => "Failed to parse config file: " ++ Text.quotePath path
  | invalid fault => fault.message

namespace Settings

def fileName : String :=
  ".locgenrc.json"

/-- The directory that marks the top of a repository. -/
def repositoryMark : String :=
  ".git"

variable {m : Type → Type} [Monad m] [FileAccess m]

/-- The first settings file of the directories, none of which lies beyond the repository. -/
def findIn? : List String → m (Option String)
  | [] => return none
  | directory :: containing => do
      let path := Path.join directory fileName
      if ← FileAccess.isPresent path then return some path
      if ← FileAccess.isPresent (Path.join directory repositoryMark) then return none
      findIn? containing

def find? (start : String) : m (Option String) :=
  findIn? (start :: Path.parents start)

def read (path : String) : m (Except ProjectFault Settings) := do
  match ← FileAccess.readText path with
  | .error fault => return .error (.unreadable fault)
  | .ok text =>
      match parse? text with
      | none => return .error (.malformed path)
      | some settings =>
          match settings.fault? with
          | some fault => return .error (.invalid fault)
          | none => return .ok settings

end Settings

/-- Without a settings file the project is the start directory with the usual settings. -/
def Project.load {m : Type → Type} [Monad m] [FileAccess m] (start : String) :
    m (Except ProjectFault Project) := do
  match ← Settings.find? start with
  | none => return .ok ⟨{}, start, false⟩
  | some path =>
      match ← Settings.read path with
      | .error fault => return .error fault
      | .ok settings => return .ok ⟨settings, (Path.parent? path).getD start, true⟩

end Phrasebook
