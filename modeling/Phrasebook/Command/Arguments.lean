/-
This file reads a command from the words of a command line. It stands for a package that is given
the commands and flags and reads the words by its documented rules.
-/

import Phrasebook.Command.Basic

namespace Phrasebook

/-- Why a command line does not lead to a command. -/
inductive UsageNotice where
  | unknownArgument
  | unknownCommand
  | missingKey
  | missingValue
  | repeatedFlag
  | unexpectedValue
  | malformedArgument (raw : String)
  | help
  | version
  deriving Repr, DecidableEq

namespace UsageNotice

/-- Help and version are shown because they were asked for. -/
def isFailure : UsageNotice → Bool
  | help => false
  | version => false
  | _ => true

end UsageNotice

namespace CommandLine

/-- The texts before and after the first equals sign. -/
def splitAtEquals? : List Char → Option (List Char × List Char)
  | [] => none
  | '=' :: rest => some ([], rest)
  | character :: rest =>
      (splitAtEquals? rest).map fun (before, after) => (character :: before, after)

/-- An argument of an entry has the form NAME=VALUE with a name. -/
def argument? (raw : String) : Option (String × String) :=
  match splitAtEquals? raw.toList with
  | none => none
  | some ([], _) => none
  | some (name, value) => some (String.ofList name, String.ofList value)

/-- What the words read so far have given, latest first. -/
structure Given where
  flags : List (Flag × String) := []
  key : Option String := none
  deriving Repr, DecidableEq

namespace Given

def has (given : Given) (flag : Flag) : Bool :=
  (given.flags.lookup flag).isSome

def value? (given : Given) (flag : Flag) : Option String :=
  given.flags.lookup flag

/-- Adds a flag with its value, which a switch does not have. -/
def add (given : Given) (flag : Flag) (value : String) : Except UsageNotice Given := do
  match flag with
  | .help => throw .help
  | .version => throw .version
  | _ => pure ()
  if given.has flag && !flag.isRepeatable then throw .repeatedFlag
  if flag.takesPath && value.isEmpty then throw .missingValue
  if flag == .argument && (argument? value).isNone then throw (.malformedArgument value)
  return { given with flags := (flag, value) :: given.flags }

/-- The arguments for an entry in the order in which they were given. -/
def arguments (given : Given) : List (String × String) :=
  given.flags.reverse.filterMap fun (flag, value) =>
    if flag == .argument then argument? value else none

def selection (given : Given) : Selection :=
  ⟨(given.value? .path).getD ".", given.value? .input, given.value? .output, given.has .verbose⟩

def additions (given : Given) : Additions :=
  ⟨given.has .strict, given.has .embedSource⟩

def command (given : Given) : Verb → Except UsageNotice Command
  | .generate => .ok (.generate given.selection given.additions (given.has .stdout))
  | .check => .ok (.check given.selection given.additions)
  | .preview =>
      match given.key with
      | none => .error .missingKey
      | some key => .ok (.preview given.selection key (given.value? .locale) given.arguments)
  | .init => .ok .init

end Given

/-- A flag that waits for the next word, or has its value but is not added yet. -/
inductive Pending where
  | nothing
  | unvalued (flag : Flag)
  | valued (flag : Flag) (value : String)
  deriving Repr, DecidableEq

/-- A pending flag is added when the next flag, key or the end of the words comes. -/
def settle (given : Given) : Pending → Except UsageNotice Given
  | .nothing => .ok given
  | .unvalued _ => .error .missingValue
  | .valued flag value => given.add flag value

/-- A word of one hyphen and letters: switches, of which the last may be a flag with a value. -/
def readLetters (flags : List Flag) (given : Given) (pending : Pending) :
    List Char → Except UsageNotice (Given × Pending)
  | [] => .ok (given, pending)
  | letter :: rest => do
      let some flag := flags.find? (·.letter? == some letter)
        | throw .unknownArgument
      let given ← settle given pending
      if flag.takesValue then
        match rest with
        | [] => return (given, .unvalued flag)
        | '=' :: value => return (← given.add flag (String.ofList value), .nothing)
        | value => return (← given.add flag (String.ofList value), .nothing)
      else
        readLetters flags (← given.add flag "") .nothing rest

/-- A word of two hyphens and a name, perhaps with a value after an equals sign. -/
def readName (flags : List Flag) (given : Given) (pending : Pending) (word : List Char) :
    Except UsageNotice (Given × Pending) := do
  let (name, value?) := match splitAtEquals? word with
    | some (name, value) => (name, some value)
    | none => (word, none)
  let some flag := flags.find? (·.name.toList == name)
    | throw .unknownArgument
  match flag.takesValue, value? with
  | true, some value => return (← (← settle given pending).add flag (String.ofList value), .nothing)
  | true, none => return (← settle given pending, .unvalued flag)
  | false, some _ => throw .unexpectedValue
  | false, none => return (← (← settle given pending).add flag "", .nothing)

/-- Only a preview takes a key, and only one. -/
def readKey (verb : Verb) (given : Given) (pending : Pending) (word : String) :
    Except UsageNotice (Given × Pending) := do
  if verb != .preview || given.key.isSome then throw .unknownArgument
  return ({ ← settle given pending with key := some word }, .nothing)

/-- After two hyphens alone every word is a key. -/
def readWords (verb : Verb) (given : Given) (pending : Pending) (onlyKeys : Bool) :
    List String → Except UsageNotice Given
  | [] => settle given pending
  | word :: rest => do
      if onlyKeys then
        let (given, pending) ← readKey verb given pending word
        readWords verb given pending true rest
      else
        match word.toList, pending with
        | ['-', '-'], _ => readWords verb given pending true rest
        | '-' :: '-' :: name, _ =>
            let (given, pending) ← readName verb.flags given pending name
            readWords verb given pending false rest
        | '-' :: letter :: letters, _ =>
            let (given, pending) ← readLetters verb.flags given pending (letter :: letters)
            readWords verb given pending false rest
        | _, .unvalued flag => readWords verb given (.valued flag word) false rest
        | _, _ =>
            let (given, pending) ← readKey verb given pending word
            readWords verb given pending false rest

def isCommandWord (word : String) : Bool :=
  word == "help" || (Verb.named? word).isSome

/-- Help can be asked for one command or for the help itself. -/
def readHelp : List String → UsageNotice
  | [] => .help
  | [word] => if isCommandWord word then .help else .unknownCommand
  | _ => .unknownCommand

/-- The flags before a command end the reading, and after two hyphens no command is looked for. -/
def read : List String → Except UsageNotice (Option Command)
  | [] => .ok none
  | ["--"] => .ok none
  | "--" :: word :: _ => .error (if isCommandWord word then .unknownArgument else .unknownCommand)
  | "help" :: rest => .error (readHelp rest)
  | word :: rest =>
      match Verb.named? word, word.toList with
      | some verb, _ => do return some (← (← readWords verb {} .nothing false rest).command verb)
      | none, '-' :: '-' :: name => do
          let _ ← readName [.help, .version] {} .nothing name
          return none
      | none, '-' :: letter :: letters => do
          let _ ← readLetters [.help, .version] {} .nothing (letter :: letters)
          return none
      | none, _ => .error .unknownCommand

end CommandLine

end Phrasebook
