/-
This file relates a text to its bytes in UTF-8. The bytes of a character beyond ASCII differ from
those of all ASCII characters, and a text can be cut where a character starts.
-/

import Mathlib.Data.List.Basic

namespace Phrasebook

theorem fromUTF8?_eq_some_iff {content : ByteArray} {text : String} :
    String.fromUTF8? content = some text ↔ content = text.toUTF8 := by
  rw [String.fromUTF8?, Option.dite_none_right_eq_some, String.toUTF8_eq_toByteArray]
  constructor
  · intro isText
    obtain ⟨isValid, same⟩ := isText
    cases same
    rfl
  · rintro rfl
    exact ⟨text.isValidUTF8, rfl⟩

namespace Text

/-- The bytes of a text. -/
def bytes (text : String) : List UInt8 :=
  text.toUTF8.data.toList

/-- A place in the bytes of a text where a character starts, or the end of the text. -/
def isBoundary (text : String) (place : Nat) : Bool :=
  String.Pos.Raw.isValid text ⟨place⟩

/-- The text between two places in the bytes of another, neither of which may be inside of a
character. -/
def slice? (text : String) (first last : Nat) : Option String :=
  if first ≤ last ∧ isBoundary text first ∧ isBoundary text last then
    String.fromUTF8? (text.toUTF8.extract first last)
  else none

theorem bytes_ofList (text : List Char) :
    bytes (String.ofList text) = text.flatMap String.utf8EncodeChar := by
  rw [bytes, String.toUTF8_eq_toByteArray, String.toByteArray_ofList, List.utf8Encode,
    List.data_toByteArray]

theorem length_bytes (text : String) : (bytes text).length = text.utf8ByteSize :=
  rfl

theorem length_bytes_append (first second : String) :
    (bytes (first ++ second)).length = (bytes first).length + (bytes second).length := by
  simp only [length_bytes, String.utf8ByteSize_append]

theorem isBoundary_append (first second : String) :
    isBoundary (first ++ second) (bytes first).length := by
  rw [isBoundary, String.Pos.Raw.isValid_eq_true_iff, String.Pos.Raw.isValid_iff_exists_append]
  exact ⟨first, second, rfl, rfl⟩

/-- A text that stands between others is cut out by the places of its bytes. -/
theorem slice_append (before part after : String) :
    slice? (before ++ part ++ after) (bytes before).length
      ((bytes before).length + (bytes part).length) = some part := by
  have starts : isBoundary (before ++ part ++ after) (bytes before).length := by
    rw [String.append_assoc]
    exact isBoundary_append before (part ++ after)
  have ends : isBoundary (before ++ part ++ after)
      ((bytes before).length + (bytes part).length) := by
    rw [← length_bytes_append]
    exact isBoundary_append (before ++ part) after
  have cut : (before ++ part ++ after).toUTF8.extract (bytes before).length
      ((bytes before).length + (bytes part).length) = part.toUTF8 := by
    have alone : part.toByteArray.extract 0 part.toByteArray.size = part.toByteArray :=
      ByteArray.extract_zero_size
    rw [String.toUTF8_eq_toByteArray, String.toUTF8_eq_toByteArray, String.append_assoc,
      String.toByteArray_append, String.toByteArray_append]
    change (before.toByteArray ++ (part.toByteArray ++ after.toByteArray)).extract
      (before.toByteArray.size + 0) (before.toByteArray.size + part.toByteArray.size) = _
    rw [ByteArray.extract_append_size_add, ByteArray.extract_append_size_left, alone]
  rw [slice?, if_pos ⟨Nat.le_add_right _ _, starts, ends⟩, cut, fromUTF8?_eq_some_iff]

/-- A character of ASCII is one byte. -/
theorem encode_of_lt {character : Char} (ascii : character.toNat < 128) :
    String.utf8EncodeChar character = [character.toUInt8] := by
  apply String.utf8EncodeChar_eq_singleton
  rw [Char.utf8Size_eq_one_iff, UInt32.le_iff_toNat_le]
  exact Nat.le_of_lt_succ ascii

/-- All bytes of other characters are beyond ASCII. -/
theorem le_of_mem_encode {character : Char} (beyond : 128 ≤ character.toNat) {byte : UInt8}
    (member : byte ∈ String.utf8EncodeChar character) : 128 ≤ byte.toNat := by
  have high {value : Nat} (low : 128 ≤ value) (fits : value < 256) :
      128 ≤ (UInt8.ofNat value).toNat := by
    rw [UInt8.toNat_ofNat', Nat.mod_eq_of_lt fits]
    exact low
  have noASCII : ¬character.val.toNat ≤ 0x7f := Nat.not_le.mpr beyond
  rw [String.utf8EncodeChar, if_neg noASCII] at member
  split at member
  · simp only [List.mem_cons, List.not_mem_nil, or_false] at member
    rcases member with rfl | rfl <;> exact high (by omega) (by omega)
  · split at member
    · simp only [List.mem_cons, List.not_mem_nil, or_false] at member
      rcases member with rfl | rfl | rfl <;> exact high (by omega) (by omega)
    · simp only [List.mem_cons, List.not_mem_nil, or_false] at member
      rcases member with rfl | rfl | rfl | rfl <;> exact high (by omega) (by omega)

theorem toUInt8_inj {first second : Char} (isFirst : first.toNat < 128)
    (isSecond : second.toNat < 128) : first.toUInt8 = second.toUInt8 ↔ first = second := by
  constructor
  · intro same
    have value {character : Char} (ascii : character.toNat < 128) :
        character.toUInt8.toNat = character.toNat :=
      Nat.mod_eq_of_lt (Nat.lt_trans ascii (by decide))
    have sameValue : first.toNat = second.toNat := by
      rw [← value isFirst, same, value isSecond]
    rw [← Char.ofNat_toNat first, sameValue, Char.ofNat_toNat]
  · rintro rfl
    rfl

/-- The byte of a character of ASCII stands in no other character. -/
theorem mem_encode_iff {mark character : Char} (ascii : mark.toNat < 128) :
    mark.toUInt8 ∈ String.utf8EncodeChar character ↔ character = mark := by
  by_cases isASCII : character.toNat < 128
  · rw [encode_of_lt isASCII, List.mem_singleton, toUInt8_inj ascii isASCII, eq_comm]
  · constructor
    · intro member
      have large := le_of_mem_encode (Nat.le_of_not_lt isASCII) member
      have small : mark.toUInt8.toNat < 128 :=
        Nat.lt_of_le_of_lt (Nat.mod_le mark.toNat 256) ascii
      exact absurd small (Nat.not_lt.mpr large)
    · rintro rfl
      exact absurd ascii isASCII

end Text

end Phrasebook
