/-
This file writes JSON strings.
-/

namespace Phrasebook.Json

/-- The four hexadecimal digits of a control character. -/
def controlEscape (character : Char) : List Char :=
  let digits := Nat.toDigits 16 character.toNat
  ['\\', 'u'] ++ List.replicate (4 - digits.length) '0' ++ digits

def escape (character : Char) : List Char :=
  match character with
  | '"' => ['\\', '"']
  | '\\' => ['\\', '\\']
  | '\x08' => ['\\', 'b']
  | '\x0c' => ['\\', 'f']
  | '\n' => ['\\', 'n']
  | '\r' => ['\\', 'r']
  | '\t' => ['\\', 't']
  | _ => if character.toNat < 0x20 then controlEscape character else [character]

def quote (text : String) : String :=
  String.ofList ('"' :: text.toList.flatMap escape ++ ['"'])

def ofBool (value : Bool) : String :=
  if value then "true" else "false"

/-- An object with one member on each line. -/
def objectText (members : List (String × String)) : String :=
  let lines := members.map fun (name, value) => "  " ++ quote name ++ ": " ++ value
  "\x7b\n" ++ ",\n".intercalate lines ++ "\n\x7d"

end Phrasebook.Json
