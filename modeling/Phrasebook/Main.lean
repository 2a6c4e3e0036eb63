/-
This file is the command line program: it runs the words it is given on the real files.
-/

import Phrasebook.Command.Program

namespace Phrasebook.Main

def faultOf : IO.Error → FileFault
  | .noFileOrDirectory .. => .notFound
  | .alreadyExists .. => .alreadyPresent
  | .inappropriateType _ code details =>
      if code == 20 then .notDirectory else if code == 21 then .isDirectory else .other details
  | error => .other (toString error)

def caught {α : Type} (action : IO α) : IO (Except FileFault α) := do
  match ← action.toBaseIO with
  | .ok value => return .ok value
  | .error error => return .error (faultOf error)

instance : FileAccess IO where
  workingDirectory := return (← IO.currentDir).toString
  canonical path := caught do return (← IO.FS.realPath path).toString
  isPresent path := return (← caught (IO.FS.realPath path)).isOk
  isDirectory path := do
    match ← caught (IO.FS.realPath path) with
    | .ok place => place.isDir
    | .error _ => return false
  readText path := do
    match ← caught (IO.FS.readBinFile path) with
    | .error fault => return .error fault
    | .ok content =>
        match String.fromUTF8? content with
        | some text => return .ok text
        | none => return .error .notText
  createDirectory path := caught (IO.FS.createDir path)
  writeText path text := caught (IO.FS.writeFile path text)

/-- Colours are used on a terminal unless the environment forbids them. -/
def run (words : List String) : IO UInt32 := do
  let values ← Code.localeVariables.mapM fun name => return (name, ← IO.getEnv name)
  let environment : Environment := fun name => (values.lookup name).join
  let colored := (← (← IO.getStdout).isTty) && (← IO.getEnv "NO_COLOR").isNone
  match ← (runWords environment colored words : IO _) with
  | .ok ending =>
      IO.print ending.printed.output
      IO.eprint ending.printed.errors
      return ending.status.code.toUInt32
  | .error notice =>
      if notice.isFailure then
        IO.eprint notice.text
        return 2
      IO.print notice.text
      return 0

end Phrasebook.Main

def main (words : List String) : IO UInt32 :=
  Phrasebook.Main.run words
