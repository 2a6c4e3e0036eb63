/-
This file reads anchors, aliases, tags and directives.
-/

import Phrasebook.Text.Digit
import Phrasebook.Yaml.Token

namespace Phrasebook.Yaml.Property

open Text

/-- A name may be followed by spacing or by one of these indicators. -/
def endsName : List Char → Bool
  | [] => true
  | character :: _ => isSpacing character || "?:,]\x7d%@\x60".toList.contains character

/-- Reads the name of an anchor or alias after its indicator. -/
def name (cursor : Cursor) : Except Fault (String × Cursor) :=
  let (characters, rest) := cursor.takeWhile isWordCharacter
  if characters.isEmpty || !endsName rest.rest then .error .badAnchor
  else .ok (String.ofList characters, rest)

/-- A handle is an exclamation mark, a word, and a closing mark if there is one. -/
def handle (cursor : Cursor) : Except Fault (List Char × Cursor) :=
  match cursor.rest with
  | '!' :: _ =>
      let (word, rest) := (cursor.drop 1).takeWhile isWordCharacter
      match rest.rest with
      | '!' :: _ => .ok ('!' :: word ++ ['!'], rest.drop 1)
      | _ => .ok ('!' :: word, rest)
  | _ => .error .badTag

/-- Verbatim tags and tag prefixes may also hold flow indicators. -/
def isUriCharacter (verbatim : Bool) (character : Char) : Bool :=
  isWordCharacter character || ";/?:@&=+$.!~*'()%".toList.contains character ||
    (verbatim && ",[]".toList.contains character)

/-- How many octets follow a leading octet. -/
def followers? (octet : Nat) : Option Nat :=
  if octet < 0x80 then some 0
  else if 0xC0 ≤ octet ∧ octet < 0xE0 then some 1
  else if 0xE0 ≤ octet ∧ octet < 0xF0 then some 2
  else if 0xF0 ≤ octet ∧ octet < 0xF8 then some 3
  else none

def isFollower (octet : Nat) : Bool :=
  0x80 ≤ octet && octet < 0xC0

/-- Reads the octets of a tag, given how many escapes must still follow the last one. -/
def octets (verbatim : Bool) (missing : Nat) (reversed : Octets) :
    List Char → Except Fault (Octets × List Char)
  | [] => if missing = 0 then .ok (reversed.reverse, []) else .error .badTag
  | '%' :: high :: low :: rest =>
      match hexDigit? high, hexDigit? low with
      | some high, some low =>
          let octet := high * 16 + low
          if missing = 0 then
            match followers? octet with
            | some count => octets verbatim count (octet.toUInt8 :: reversed) rest
            | none => .error .badTag
          else if isFollower octet then
            octets verbatim (missing - 1) (octet.toUInt8 :: reversed) rest
          else .error .badTag
      | _, _ => .error .badTag
  | character :: rest =>
      if missing ≠ 0 || character == '%' then .error .badTag
      else if isUriCharacter verbatim character then
        octets verbatim 0 (character.toNat.toUInt8 :: reversed) rest
      else .ok (reversed.reverse, character :: rest)

/-- Reads octets and the place after them. A zero octet ends what counts of them. -/
def uri (verbatim : Bool) (cursor : Cursor) : Except Fault (Octets × Cursor) := do
  let (read, rest) ← octets verbatim 0 [] cursor.rest
  return (read.takeWhile (· ≠ 0),
    ⟨rest, cursor.position.advance (cursor.rest.length - rest.length)⟩)

def asOctets (characters : List Char) : Octets :=
  characters.map (·.toNat.toUInt8)

/-- A tag ends at spacing, and inside a flow collection also at a comma. -/
def endsTag (inFlow : Bool) (rest : List Char) : Bool :=
  atSpacing rest || (inFlow && rest.head? == some ',')

/-- Reads a tag at its exclamation mark. -/
def tag (inFlow : Bool) (cursor : Cursor) : Except Fault (Token × Cursor) := do
  let (token, rest) ← match cursor.rest with
    | _ :: '<' :: _ => do
        let (suffix, rest) ← uri true (cursor.drop 2)
        if rest.position.index = cursor.position.index + 2 || rest.rest.head? ≠ some '>' then
          throw Fault.badTag
        pure (Token.tag "" suffix, rest.drop 1)
    | _ => do
        let (start, afterStart) ← handle cursor
        let (suffix, rest) ← uri false afterStart
        if 1 < start.length && start.getLast? = some '!' then
          if rest.position.index = afterStart.position.index then
            throw Fault.badTag
          pure (Token.tag (String.ofList start) suffix, rest)
        else
          let whole := asOctets start.tail ++ suffix
          if whole.isEmpty then
            pure (Token.tag "" (asOctets ['!']), rest)
          else
            pure (Token.tag "!" whole, rest)
  if endsTag inFlow rest.rest then return (token, rest)
  else throw .badTag

/-- Version numbers have one to nine digits. -/
def versionNumber (cursor : Cursor) : Except Fault (Nat × Cursor) :=
  let (digits, rest) := cursor.takeWhile Char.isDigit
  if digits.isEmpty || 9 < digits.length then .error .badDirective
  else .ok (digits.foldl (fun value digit => value * 10 + (digit.toNat - '0'.toNat)) 0, rest)

def versionDirective (cursor : Cursor) : Except Fault (Token × Cursor) := do
  let (major, afterMajor) ← versionNumber (cursor.skipWhile isBlank)
  if afterMajor.rest.head? ≠ some '.' then
    throw .badDirective
  let (minor, rest) ← versionNumber (afterMajor.drop 1)
  return (.version major minor, rest)

def prefixDirective (cursor : Cursor) : Except Fault (Token × Cursor) := do
  let (start, afterStart) ← handle (cursor.skipWhile isBlank)
  if 1 < start.length && start.getLast? ≠ some '!' then
    throw .badDirective
  if !(afterStart.rest.head?.any isBlank) then
    throw .badDirective
  let beforeUri := afterStart.skipWhile isBlank
  let (octets, rest) ← uri true beforeUri
  if rest.position.index = beforeUri.position.index || !atSpacing rest.rest then
    throw .badDirective
  return (.tagPrefix (String.ofList start) octets, rest)

/-- Reads a directive at its percent sign, with the end of its line. -/
def directive (cursor : Cursor) : Except Fault (Token × Cursor) := do
  let (name, afterName) := (cursor.drop 1).takeWhile isWordCharacter
  if name.isEmpty || !atSpacing afterName.rest then
    throw .badDirective
  let (token, rest) ←
    if name == "YAML".toList then versionDirective afterName
    else if name == "TAG".toList then prefixDirective afterName
    else throw .badDirective
  let lineEnd := rest.skipLineTail
  if !atLineEnd lineEnd.rest then
    throw .badDirective
  return (token, lineEnd.skipBreak)

end Phrasebook.Yaml.Property
