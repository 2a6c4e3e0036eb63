/-
This file says which operations on files the commands need and how they fail.
-/

import Phrasebook.Files.Path

namespace Phrasebook

inductive FileFault where
  | notFound
  | alreadyPresent
  | notDirectory
  | isDirectory
  | notText
  | nameTooLong
  | nameWithNul
  | other (description : String)
  deriving Repr, DecidableEq

def FileFault.message : FileFault → String
  | notFound => "No such file or directory (os error 2)"
  | alreadyPresent => "File exists (os error 17)"
  | notDirectory => "Not a directory (os error 20)"
  | isDirectory => "Is a directory (os error 21)"
  | notText => "stream did not contain valid UTF-8"
  | nameTooLong => "File name too long (os error 36)"
  | nameWithNul => "file name contained an unexpected NUL byte"
  | other description => description

/-- Relative paths are taken from the working directory. -/
class FileAccess (m : Type → Type) where
  workingDirectory : m String
  /-- The absolute path of what is present, without idle parts. -/
  canonical : String → m (Except FileFault String)
  isPresent : String → m Bool
  isDirectory : String → m Bool
  readText : String → m (Except FileFault String)
  createDirectory : String → m (Except FileFault Unit)
  writeText : String → String → m (Except FileFault Unit)

namespace FileAccess

variable {m : Type → Type} [Monad m] [FileAccess m]

/-- Creates the first of the directories, and before it the missing ones that contain it. -/
def createAll : List String → m (Except FileFault Unit)
  | [] => return .error .notFound
  | path :: containing => do
      if path.isEmpty then return .ok ()
      match ← createDirectory path with
      | .ok () => return .ok ()
      | .error .notFound =>
          match ← createAll containing with
          | .error fault => return .error fault
          | .ok () => settle path (← createDirectory path)
      | .error fault => settle path (.error fault)
where
  /-- A directory that is already present is as good as a new one. -/
  settle (path : String) : Except FileFault Unit → m (Except FileFault Unit)
    | .ok () => return .ok ()
    | .error fault => do return if ← isDirectory path then .ok () else .error fault

def createDirectories (path : String) : m (Except FileFault Unit) :=
  createAll (path :: Path.parents path)

end FileAccess

end Phrasebook
