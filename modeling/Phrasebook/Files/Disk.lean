/-
This file is a file system as a value: directories and plain files under their names. It has no
links, devices or permissions, and a write either takes place as a whole or changes nothing.
-/

import Phrasebook.Files.Basic

namespace Phrasebook

/-- The names that lead from the root directory to a place. -/
abbrev Place := List (List Char)

inductive FileEntry where
  | directory
  | file (content : ByteArray)
  deriving BEq

structure Disk where
  entries : List (Place × FileEntry) := []
  workingDirectory : Place := []

namespace Disk

/-- The root directory is always present. -/
def entryAt? (disk : Disk) (place : Place) : Option FileEntry :=
  if place.isEmpty then some .directory else disk.entries.lookup place

def put (disk : Disk) (place : Place) (entry : FileEntry) : Disk :=
  { disk with
    entries := (place, entry) :: disk.entries.filter fun (other, _) => other != place }

/-- The number of bytes that a name may have. -/
def nameLimit : Nat :=
  255

/-- The number of bytes that a path may have. -/
def pathLimit : Nat :=
  4095

/-- Only a directory leads further. -/
def follow (disk : Disk) (place : Place) (part : List Char) : Except FileFault Place :=
  match disk.entryAt? place with
  | none => .error .notFound
  | some (.file _) => .error .notDirectory
  | some .directory =>
      if Path.isIdle part then .ok place
      else if part == ['.', '.'] then .ok place.dropLast
      else if (String.ofList part).utf8ByteSize > nameLimit then .error .nameTooLong
      else .ok (place ++ [part])

/-- The place that a path leads to, where something may be missing. -/
def locate (disk : Disk) (path : String) (parts : List (List Char)) : Except FileFault Place :=
  if path.toList.contains '\x00' then .error .nameWithNul
  else if path.isEmpty then .error .notFound
  else if path.utf8ByteSize > pathLimit then .error .nameTooLong
  else parts.foldlM disk.follow (if Path.isAbsolute path then [] else disk.workingDirectory)

def find (disk : Disk) (path : String) : Except FileFault (Place × FileEntry) := do
  let place ← disk.locate path (Path.parts path.toList)
  match disk.entryAt? place with
  | none => throw .notFound
  | some entry => return (place, entry)

def isPresent (disk : Disk) (path : String) : Bool :=
  (disk.find path).isOk

def isDirectory (disk : Disk) (path : String) : Bool :=
  match disk.find path with
  | .ok (_, .directory) => true
  | _ => false

/-- The text of a path that leads from the root by names only. -/
def placeText (place : Place) : String :=
  if place.isEmpty then "/" else Path.ofParts ([] :: place)

def canonical (disk : Disk) (path : String) : Except FileFault String := do
  let (place, _) ← disk.find path
  return placeText place

def readText (disk : Disk) (path : String) : Except FileFault String := do
  match ← disk.find path with
  | (_, .directory) => throw .isDirectory
  | (_, .file content) =>
      match String.fromUTF8? content with
      | some text => return text
      | none => throw .notText

def createDirectory (disk : Disk) (path : String) : Except FileFault Disk := do
  let place ← disk.locate path (Path.parts path.toList)
  match disk.entryAt? place with
  | some _ => throw .alreadyPresent
  | none => return disk.put place .directory

/-- A slash at the end asks for a directory, which cannot be written. -/
def writeText (disk : Disk) (path text : String) : Except FileFault Disk := do
  let parts := Path.parts path.toList
  let place ← disk.locate path (Path.withoutSlashes parts)
  if Path.withoutSlashes parts != parts then throw .isDirectory
  match disk.entryAt? place with
  | some .directory => throw .isDirectory
  | _ => return disk.put place (.file text.toUTF8)

/-- Keeps the disk that an operation leaves, or the old one if it fails. -/
def update (operation : Disk → Except FileFault Disk) : StateM Disk (Except FileFault Unit) :=
  fun disk =>
    match operation disk with
    | .ok changed => (.ok (), changed)
    | .error fault => (.error fault, disk)

instance : FileAccess (StateM Disk) where
  workingDirectory := return placeText (← get).workingDirectory
  canonical path := return (← get).canonical path
  isPresent path := return (← get).isPresent path
  isDirectory path := return (← get).isDirectory path
  readText path := return (← get).readText path
  createDirectory path := update (·.createDirectory path)
  writeText path text := update (·.writeText path text)

end Disk

end Phrasebook
