/-
This file reads paths as parts between slashes, without looking at any file.
-/

namespace Phrasebook.Path

def isAbsolute (path : String) : Bool :=
  path.toList.head? == some '/'

/-- A relative path is taken from the base. -/
def join (base path : String) : String :=
  if isAbsolute path then path
  else if base.isEmpty || base.toList.getLast? == some '/' then base ++ path
  else base ++ "/" ++ path

/-- The parts between the slashes; an absolute path has an empty first part. -/
def parts : List Char → List (List Char)
  | [] => [[]]
  | '/' :: rest => [] :: parts rest
  | character :: rest =>
      match parts rest with
      | [] => [[character]]
      | part :: more => (character :: part) :: more

def ofParts (parts : List (List Char)) : String :=
  String.ofList (List.intercalate ['/'] parts)

/-- The parts of a path without the slashes at its end. -/
def withoutSlashes (parts : List (List Char)) : List (List Char) :=
  parts.take 1 ++ ((parts.drop 1).reverse.dropWhile List.isEmpty).reverse

/-- A part that does not lead anywhere else. -/
def isIdle (part : List Char) : Bool :=
  part == [] || part == ['.']

/-- The path with the given first part and the other parts from last to first. -/
def ofReversed (head : List Char) (reversed : List (List Char)) : String :=
  match reversed.dropWhile isIdle with
  | [] => if head.isEmpty then "/" else String.ofList head
  | reversed => ofParts (head :: reversed.reverse)

def parentsFrom (head : List Char) : List (List Char) → List String
  | [] => if head.isEmpty then [] else [""]
  | part :: before =>
      if isIdle part then parentsFrom head before
      else ofReversed head before :: parentsFrom head before

/-- The paths that contain a path, from the nearest one outwards. -/
def parents (path : String) : List String :=
  match parts path.toList with
  | [] => []
  | head :: tail => parentsFrom head tail.reverse

def parent? (path : String) : Option String :=
  (parents path).head?

/-- The parts after the given names, if the parts begin with these names. -/
def dropNames? : List (List Char) → List (List Char) → Option (List (List Char))
  | [], parts => some (parts.dropWhile isIdle)
  | name :: names, parts =>
      match parts.dropWhile isIdle with
      | [] => none
      | part :: rest => if part == name then dropNames? names rest else none

/-- A path below an absolute directory is written from there, any other one stays. -/
def relativeTo (directory path : String) : String :=
  if !isAbsolute path then path
  else
    let names := (parts directory.toList).filter fun part => !isIdle part
    match dropNames? names (parts path.toList) with
    | none => path
    | some rest => ofParts (rest.reverse.dropWhile isIdle).reverse

end Phrasebook.Path
