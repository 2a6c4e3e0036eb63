/-
This file reads string literals of the generated language with all of its escapes. The main
statement is that the literal of a text stands on one line and reads as the text.
-/

import Phrasebook.Proofs.Scan
import Phrasebook.Text.Digit
import Phrasebook.Text.Quoted

namespace Phrasebook.Text

/-- Where a reader stands inside a literal. -/
inductive EscapeState where
  | plain
  /-- After a backslash. -/
  | escaped
  /-- Before the two digits of a character below 128. -/
  | byte
  | byteDigit (high : Nat)
  /-- Before the braces of a code point. -/
  | code
  | codeDigits (count value : Nat)
  deriving Repr, DecidableEq

namespace EscapeState

/-- The state after a backslash and a character, and the character that both stand for. -/
def escapeNext : Char → Option (EscapeState × List Char)
  | 'n' => some (plain, ['\n'])
  | 'r' => some (plain, ['\r'])
  | 't' => some (plain, ['\t'])
  | '0' => some (plain, ['\x00'])
  | '\\' => some (plain, ['\\'])
  | '"' => some (plain, ['"'])
  | '\'' => some (plain, ['\''])
  | 'x' => some (byte, [])
  | 'u' => some (code, [])
  | _ => none

/-- A code point has one to six digits, behind which underscores may stand. -/
def codeNext (count value : Nat) (character : Char) : Option (EscapeState × List Char) :=
  if character == '\x7d' then
    if 0 < count ∧ value.isValidChar then some (plain, [Char.ofNat value]) else none
  else if character == '_' then
    if 0 < count then some (codeDigits count value, []) else none
  else
    match hexDigit? character with
    | some digit =>
        if count < 6 then some (codeDigits (count + 1) (16 * value + digit), []) else none
    | none => none

/-- The next state and the characters that are complete with it. A quote ends the literal and is
no such character. -/
def next (state : EscapeState) (character : Char) : Option (EscapeState × List Char) :=
  match state with
  | plain =>
      if character == '\\' then some (escaped, [])
      else if character == '"' || character == '\r' then none
      else some (plain, [character])
  | escaped => escapeNext character
  | byte =>
      match hexDigit? character with
      | some digit => if digit < 8 then some (byteDigit digit, []) else none
      | none => none
  | byteDigit high =>
      match hexDigit? character with
      | some digit => some (plain, [Char.ofNat (16 * high + digit)])
      | none => none
  | code => if character == '\x7b' then some (codeDigits 0 0, []) else none
  | codeDigits count value => codeNext count value character

theorem next_plain {character : Char} (noBackslash : character ≠ '\\')
    (noQuote : character ≠ '"') (noReturn : character ≠ '\r') :
    plain.next character = some (plain, [character]) := by
  simp [next, noBackslash, noQuote, noReturn]

/-- A quote is read behind a backslash only. -/
theorem eq_escaped_of_quote {state : EscapeState} {stepped : EscapeState × List Char}
    (isNext : state.next '"' = some stepped) : state = escaped := by
  have noDigit : hexDigit? '"' = none := by decide
  cases state with
  | escaped => rfl
  | plain => cases isNext
  | code => cases isNext
  | byte => simp [next, noDigit] at isNext
  | byteDigit high => simp [next, noDigit] at isNext
  | codeDigits count value => simp [next, codeNext, noDigit] at isNext

theorem next_digit {count value digit : Nat} (bound : digit < 16) (short : count < 6) :
    (codeDigits count value).next digit.digitChar =
      some (codeDigits (count + 1) (16 * value + digit), []) := by
  have isDigit : ∀ digit < 16, digit.digitChar ≠ '\x7d' ∧ digit.digitChar ≠ '_' ∧
      hexDigit? digit.digitChar = some digit := by
    decide
  obtain ⟨noBrace, noMark, isValue⟩ := isDigit digit bound
  simp [next, codeNext, noBrace, noMark, isValue, short]

/-- The digits of a number read as the number. -/
theorem scan_digits (number : Nat) (short : (Nat.toDigits 16 number).length ≤ 6) :
    scan next (codeDigits 0 0) (Nat.toDigits 16 number) =
      some (codeDigits (Nat.toDigits 16 number).length number, []) := by
  induction number using Nat.strongRecOn with
  | ind number inductionHypothesis =>
      by_cases small : number < 16
      · rw [Nat.toDigits_of_lt_base small]
        exact scan_singleton ((next_digit small (by omega)).trans (by simp))
      · rw [Nat.toDigits_of_base_le (by omega) (by omega)] at short ⊢
        rw [List.length_append, List.length_singleton] at short ⊢
        have shorter : number / 16 < number := by omega
        have isFirst := inductionHypothesis (number / 16) shorter (by omega)
        have isLast : (codeDigits (Nat.toDigits 16 (number / 16)).length (number / 16)).next
            (number % 16).digitChar = some (codeDigits _ (16 * (number / 16) + number % 16), []) :=
          next_digit (Nat.mod_lt number (by omega)) (by omega)
        rw [Nat.div_add_mod] at isLast
        exact scan_append isFirst (scan_singleton isLast)

theorem scan_hexadecimal (character : Char) :
    scan next plain (['\\', 'u', '\x7b'] ++ hexadecimal character ++ ['\x7d']) =
      some (plain, [character]) := by
  have short : (Nat.toDigits 16 character.toNat).length ≤ 6 := by
    rw [Nat.length_toDigits_le_iff (by omega) (by omega)]
    rcases character.valid with bound | ⟨_, bound⟩
    · exact Nat.lt_trans bound (by decide)
    · exact Nat.lt_trans bound (by decide)
  have isOpen : scan next plain ['\\', 'u', '\x7b'] = some (codeDigits 0 0, []) := rfl
  have isCode := scan_append isOpen (scan_digits character.toNat short)
  apply scan_append isCode
  apply scan_singleton
  have positive : 0 < (Nat.toDigits 16 character.toNat).length := Nat.length_toDigits_pos
  have valid : character.toNat.isValidChar := character.valid
  simp [next, codeNext, positive, valid]

/-- Escaping a character is undone by reading. -/
theorem scan_escape (character : Char) :
    scan next plain (escape character) = some (plain, [character]) := by
  unfold escape
  split
  case h_7 noZero noTab noReturn noFeed noQuote noBackslash =>
    split
    · exact scan_singleton (next_plain noBackslash noQuote noReturn)
    · exact scan_hexadecimal character
  all_goals rfl

theorem scan_escapes (text : List Char) :
    scan next plain (text.flatMap escape) = some (plain, text) := by
  have scanned : scan next plain (text.flatMap escape) =
      some (plain, text.flatMap fun character => [character]) :=
    scan_flatMap fun character _ => scan_escape character
  rw [List.flatMap_singleton'] at scanned
  exact scanned

end EscapeState

def lineBreaks : List Char :=
  ['\n', '\x0b', '\x0c', '\r', '\u0085', '\u2028', '\u2029']

/-- A literal stands in quotes on one line and reads as its content. -/
structure IsLiteral (literal content : String) : Prop where
  oneLine : ∀ character ∈ literal.toList, character ∉ lineBreaks
  reads : ∃ inside, literal.toList = '"' :: inside ++ ['"'] ∧
    scan EscapeState.next .plain inside = some (.plain, content.toList)

/-- No quote ends a literal before its last one. -/
def QuotesEscaped (literal : String) : Prop :=
  ∀ before after, literal.toList = '"' :: before ++ '"' :: after ++ ['"'] →
    ∃ written, scan EscapeState.next .plain before = some (.escaped, written)

theorem not_lineBreak_of_mem_toDigits (number : Nat) :
    ∀ character ∈ Nat.toDigits 16 number, character ∉ lineBreaks := by
  induction number using Nat.strongRecOn with
  | ind number inductionHypothesis =>
      have isDigit : ∀ digit < 16, digit.digitChar ∉ lineBreaks := by decide
      by_cases small : number < 16
      · simpa [Nat.toDigits_of_lt_base small] using isDigit number small
      · have shorter : number / 16 < number := by omega
        rw [Nat.toDigits_of_base_le (by omega) (by omega), List.forall_mem_append]
        exact ⟨inductionHypothesis _ shorter, by simpa using isDigit _ (Nat.mod_lt _ (by omega))⟩

theorem not_lineBreak_of_isPrintable {character : Char} (printable : isPrintable character) :
    character ∉ lineBreaks := by
  have unprintable : lineBreaks.all (! isPrintable ·) := by decide +kernel
  intro isBreak
  have isNot := List.all_eq_true.mp unprintable character isBreak
  simp [printable] at isNot

/-- Escaping leaves no line break. -/
theorem not_lineBreak_of_mem_escape (character : Char) :
    ∀ written ∈ escape character, written ∉ lineBreaks := by
  unfold escape
  split
  case h_7 =>
    split
    · rename_i printable
      simpa using not_lineBreak_of_isPrintable printable
    · rw [List.forall_mem_append, List.forall_mem_append]
      exact ⟨⟨by simp [lineBreaks], not_lineBreak_of_mem_toDigits _⟩, by simp [lineBreaks]⟩
  all_goals simp [lineBreaks]

/-- The literal of a text reads as the text. -/
theorem isLiteral_quote (text : String) : IsLiteral (quote text) text := by
  constructor
  · intro character member
    have inQuotes : character = '"' ∨ (∃ original ∈ text.toList, character ∈ escape original) ∨
        character = '"' := by
      simpa [quote] using member
    obtain rfl | ⟨original, _, written⟩ | rfl := inQuotes
    · decide
    · exact not_lineBreak_of_mem_escape original character written
    · decide
  · exact ⟨_, by simp [quote], EscapeState.scan_escapes text.toList⟩

namespace IsLiteral

variable {literal content other : String}

/-- A literal has one content. -/
theorem content_eq (isLiteral : IsLiteral literal content) (isOther : IsLiteral literal other) :
    content = other := by
  obtain ⟨inside, isText, reads⟩ := isLiteral.reads
  obtain ⟨otherInside, isOtherText, otherReads⟩ := isOther.reads
  have same : inside = otherInside := by
    rw [isText] at isOtherText
    exact List.append_cancel_right (List.cons.inj isOtherText).2
  rw [same, otherReads] at reads
  injection reads with pair
  injection pair with _ contents
  exact String.toList_inj.mp contents.symm

/-- The quotes inside of a literal stand behind backslashes that begin an escape. -/
theorem quotesEscaped (isLiteral : IsLiteral literal content) : QuotesEscaped literal := by
  intro before after isText
  obtain ⟨inside, isInside, reads⟩ := isLiteral.reads
  have parts : inside = before ++ '"' :: after := by
    rw [isText] at isInside
    exact (List.append_cancel_right (List.cons.inj isInside).2).symm
  rw [parts, scan_append_eq_some_iff] at reads
  obtain ⟨middle, written, _, isBefore, further, _⟩ := reads
  obtain ⟨_, _, _, isNext, _⟩ := scan_cons_eq_some_iff.mp further
  rw [EscapeState.eq_escaped_of_quote isNext] at isBefore
  exact ⟨written, isBefore⟩

end IsLiteral

theorem isLiteral_quote_iff {text content : String} :
    IsLiteral (quote text) content ↔ content = text := by
  constructor
  · intro isLiteral
    exact isLiteral.content_eq (isLiteral_quote text)
  · rintro rfl
    exact isLiteral_quote content

end Phrasebook.Text
