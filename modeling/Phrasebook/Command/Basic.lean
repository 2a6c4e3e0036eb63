/-
This file lists the commands and what can be asked of each.
-/

namespace Phrasebook

/-- Which project a command works on, with paths that replace those of the settings. -/
structure Selection where
  path : String := "."
  input : Option String := none
  output : Option String := none
  verbose : Bool := false
  deriving Repr, DecidableEq

/-- Options that a command switches on besides those of the settings. -/
structure Additions where
  strict : Bool := false
  embedSource : Bool := false
  deriving Repr, DecidableEq

inductive Command where
  | generate (selection : Selection) (additions : Additions) (toStdout : Bool)
  | check (selection : Selection) (additions : Additions)
  | preview (selection : Selection) (name : String) (locale : Option String)
      (arguments : List (String × String))
  | init
  deriving Repr, DecidableEq

/-- The word that names a command. -/
inductive Verb where
  | generate
  | check
  | preview
  | init
  deriving Repr, DecidableEq

namespace Verb

def all : List Verb :=
  [generate, check, preview, init]

def name : Verb → String
  | generate => "generate"
  | check => "check"
  | preview => "preview"
  | init => "init"

def named? (word : String) : Option Verb :=
  all.find? (·.name == word)

end Verb

inductive Flag where
  | help
  | version
  | path
  | input
  | output
  | verbose
  | strict
  | embedSource
  | stdout
  | locale
  | argument
  deriving Repr, DecidableEq

namespace Flag

def name : Flag → String
  | help => "help"
  | version => "version"
  | path => "path"
  | input => "input"
  | output => "output"
  | verbose => "verbose"
  | strict => "strict"
  | embedSource => "embed-source"
  | stdout => "stdout"
  | locale => "locale"
  | argument => "arg"

def letter? : Flag → Option Char
  | help => some 'h'
  | version => some 'V'
  | input => some 'i'
  | output => some 'o'
  | verbose => some 'v'
  | locale => some 'l'
  | argument => some 'a'
  | path => none
  | strict => none
  | embedSource => none
  | stdout => none

def takesValue : Flag → Bool
  | path => true
  | input => true
  | output => true
  | locale => true
  | argument => true
  | help => false
  | version => false
  | verbose => false
  | strict => false
  | embedSource => false
  | stdout => false

/-- The value is a path, which may not be empty. -/
def takesPath : Flag → Bool
  | path => true
  | input => true
  | output => true
  | _ => false

/-- Only arguments of an entry may be given again. -/
def isRepeatable (flag : Flag) : Bool :=
  flag == argument

def shared : List Flag :=
  [help, path, input, output, verbose]

end Flag

def Verb.flags : Verb → List Flag
  | generate => Flag.shared ++ [.strict, .embedSource, .stdout]
  | check => Flag.shared ++ [.strict, .embedSource]
  | preview => Flag.shared ++ [.locale, .argument]
  | init => [.help]

end Phrasebook
