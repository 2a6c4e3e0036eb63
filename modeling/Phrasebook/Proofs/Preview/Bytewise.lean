/-
This file splits a text at separators by its bytes and cuts the parts out of it. The bytes give the
same parts as the characters, so that no part begins or ends inside of a character.
-/

import Phrasebook.Proofs.Preview.Splitting
import Phrasebook.Proofs.Text.Bytes

namespace Phrasebook.Condition

open Text

/-- What stands between the parts of a text. -/
structure Separator where
  text : String
  inhabited : text ≠ ""

namespace Separator

def bytes (separator : Separator) : List UInt8 :=
  Text.bytes separator.text

theorem length_bytes_pos (separator : Separator) : 0 < separator.bytes.length := by
  rw [bytes, length_bytes, Nat.pos_iff_ne_zero, ne_eq, String.utf8ByteSize_eq_zero_iff]
  exact separator.inhabited

def doubled (mark : Char) : Separator where
  text := String.ofList [mark, mark]
  inhabited isEmpty := by
    rw [String.ofList_eq_empty_iff] at isEmpty
    cases isEmpty

end Separator

/-- Reads one byte more, where 34 is a quote and 92 a backslash. -/
def nextByte (state : LiteralState) (byte : UInt8) : LiteralState :=
  match state with
  | .outside => if byte == 34 then .inside else .outside
  | .inside =>
      if byte == 92 then .escaped
      else if byte == 34 then .outside
      else .inside
  | .escaped => .inside

/-- Whether a part ends in front of the bytes. -/
def isCut (separator : Separator) (state : LiteralState) (rest : List UInt8) : Bool :=
  state == .outside && rest.head? != some 34 && separator.bytes.isPrefixOf rest

/-- Splits a text whose bytes are read up to `index`, where the last part began at `start`. There
is no result if a part does not consist of whole characters. -/
def splitBytes? (separator : Separator) (text : String) (start index : Nat)
    (state : LiteralState) : Option (List String) :=
  if more : index < (bytes text).length then
    if isCut separator state ((bytes text).drop index) then do
      let part ← slice? text start index
      let behind := index + separator.bytes.length
      (splitBytes? separator text behind behind .outside).map (part :: ·)
    else splitBytes? separator text start (index + 1) (nextByte state (bytes text)[index])
  else (slice? text start (bytes text).length).map ([·])
termination_by (bytes text).length - index
decreasing_by
  · have advances := separator.length_bytes_pos
    omega
  · omega

section

variable {separator : Separator} {text : String} {start index : Nat} {state : LiteralState}
  {byte : UInt8} {run rest : List UInt8}

/-- The byte at a place and those behind it. -/
theorem getElem_of_drop (stands : (bytes text).drop index = byte :: rest) :
    ∃ more : index < (bytes text).length, (bytes text)[index] = byte ∧
      (bytes text).drop (index + 1) = rest := by
  have more : index < (bytes text).length := by
    rw [← Nat.sub_pos_iff_lt, ← List.length_drop, stands]
    exact Nat.succ_pos _
  rw [List.drop_eq_getElem_cons more, List.cons.injEq] at stands
  exact ⟨more, stands⟩

theorem splitBytes_of_cut (stands : (bytes text).drop index = byte :: rest)
    (cut : isCut separator state (byte :: rest)) :
    splitBytes? separator text start index state =
      (slice? text start index).bind fun part =>
        (splitBytes? separator text (index + separator.bytes.length)
          (index + separator.bytes.length) .outside).map (part :: ·) := by
  obtain ⟨more, _⟩ := getElem_of_drop stands
  rw [splitBytes?, dif_pos more, stands, if_pos cut]
  rfl

theorem splitBytes_of_kept (stands : (bytes text).drop index = byte :: rest)
    (kept : ¬isCut separator state (byte :: rest)) :
    splitBytes? separator text start index state =
      splitBytes? separator text start (index + 1) (nextByte state byte) := by
  obtain ⟨more, isByte, _⟩ := getElem_of_drop stands
  rw [splitBytes?, dif_pos more, stands, if_neg kept, isByte]

theorem splitBytes_of_end (ended : (bytes text).length ≤ index) :
    splitBytes? separator text start index state =
      (slice? text start (bytes text).length).map ([·]) := by
  rw [splitBytes?, dif_neg (Nat.not_lt.mpr ended)]

end

/-- Bytes that are neither quotes nor backslashes leave the state as it is, except that they end an
escape. -/
theorem foldl_nextByte_of_plain {state : LiteralState} {run : List UInt8}
    (settled : state ≠ .escaped) (plain : ∀ byte ∈ run, byte ≠ 34 ∧ byte ≠ 92) :
    run.foldl nextByte state = state := by
  induction run with
  | nil => rfl
  | cons byte others inductionHypothesis =>
      rw [List.forall_mem_cons] at plain
      obtain ⟨⟨noQuote, noBackslash⟩, further⟩ := plain
      have kept : nextByte state byte = state := by
        cases state with
        | outside => simp [nextByte, noQuote]
        | inside => simp [nextByte, noQuote, noBackslash]
        | escaped => exact absurd rfl settled
      rw [List.foldl_cons, kept, inductionHypothesis further]

/-- The bytes of a character change the state as the character does. -/
theorem foldl_nextByte (state : LiteralState) (character : Char) :
    (String.utf8EncodeChar character).foldl nextByte state = state.next character := by
  have quote : '"'.toUInt8 ∈ String.utf8EncodeChar character ↔ character = '"' :=
    mem_encode_iff (by decide)
  have backslash : '\\'.toUInt8 ∈ String.utf8EncodeChar character ↔ character = '\\' :=
    mem_encode_iff (by decide)
  by_cases isQuote : character = '"'
  · subst isQuote
    cases state <;> rfl
  by_cases isBackslash : character = '\\'
  · subst isBackslash
    cases state <;> rfl
  have plain (byte : UInt8) (member : byte ∈ String.utf8EncodeChar character) :
      byte ≠ 34 ∧ byte ≠ 92 := by
    constructor
    · rintro rfl
      exact isQuote (quote.mp member)
    · rintro rfl
      exact isBackslash (backslash.mp member)
  cases state with
  | outside =>
      rw [foldl_nextByte_of_plain (by decide) plain, LiteralState.next_outside isQuote]
  | inside =>
      rw [foldl_nextByte_of_plain (by decide) plain, LiteralState.next]
      simp [isQuote, isBackslash]
  | escaped =>
      obtain ⟨first, others, isEncoded⟩ :=
        List.exists_cons_of_ne_nil (String.utf8EncodeChar_ne_nil (c := character))
      rw [isEncoded, List.forall_mem_cons] at plain
      rw [isEncoded, List.foldl_cons]
      exact foldl_nextByte_of_plain LiteralState.noConfusion plain.2

section

variable {mark : Char} {state : LiteralState} {run : List UInt8} {before rest : List Char}

theorem bytes_doubled (ascii : mark.toNat < 128) :
    (Separator.doubled mark).bytes = [mark.toUInt8, mark.toUInt8] := by
  rw [Separator.bytes, Separator.doubled, bytes_ofList, List.flatMap_cons, List.flatMap_singleton,
    encode_of_lt ascii]
  rfl

/-- The byte of a character of ASCII begins the bytes of just the texts that the character
begins. -/
theorem cons_prefix_flatMap_iff (ascii : mark.toNat < 128) {others : List UInt8} :
    mark.toUInt8 :: others <+: rest.flatMap String.utf8EncodeChar ↔
      ∃ further, rest = mark :: further ∧ others <+: further.flatMap String.utf8EncodeChar := by
  cases rest with
  | nil => simp
  | cons character further =>
      rw [List.flatMap_cons]
      by_cases isMark : character = mark
      · subst isMark
        rw [encode_of_lt ascii, List.singleton_append, List.cons_prefix_cons]
        simp
      · obtain ⟨first, later, isEncoded⟩ :=
          List.exists_cons_of_ne_nil (String.utf8EncodeChar_ne_nil (c := character))
        have differs : mark.toUInt8 ≠ first := by
          rintro rfl
          have member : mark.toUInt8 ∈ String.utf8EncodeChar character := by
            rw [isEncoded]
            exact List.mem_cons_self
          exact isMark ((mem_encode_iff ascii).mp member)
        rw [isEncoded, List.cons_append, List.cons_prefix_cons]
        simp [differs, isMark]

theorem isCut_doubled_iff (ascii : mark.toNat < 128) (noQuote : mark ≠ '"') {rest : List UInt8} :
    isCut (.doubled mark) state rest ↔
      state = .outside ∧ [mark.toUInt8, mark.toUInt8] <+: rest := by
  have differs : mark.toUInt8 ≠ 34 := by
    rw [ne_eq, show (34 : UInt8) = '"'.toUInt8 from rfl, toUInt8_inj ascii (by decide)]
    exact noQuote
  rw [isCut, bytes_doubled ascii, Bool.and_eq_true, Bool.and_eq_true, List.isPrefixOf_iff_prefix,
    beq_iff_eq, bne_iff_ne, and_assoc]
  refine and_congr_right fun _ => and_iff_right_of_imp ?_
  rintro ⟨further, rfl⟩
  simpa using differs

/-- A text is not cut at bytes with which no separator begins. -/
theorem splitBytes_pass (ascii : mark.toNat < 128) (noQuote : mark ≠ '"') {text : String}
    {start index : Nat} {rest : List UInt8} (stands : (bytes text).drop index = run ++ rest)
    (absent : mark.toUInt8 ∉ run) :
    splitBytes? (.doubled mark) text start index state =
      splitBytes? (.doubled mark) text start (index + run.length) (run.foldl nextByte state) := by
  induction run generalizing index state with
  | nil => rfl
  | cons byte others inductionHypothesis =>
      rw [List.cons_append] at stands
      rw [List.mem_cons, not_or] at absent
      obtain ⟨differs, further⟩ := absent
      have kept : ¬isCut (.doubled mark) state (byte :: (others ++ rest)) := by
        rw [isCut_doubled_iff ascii noQuote, List.cons_prefix_cons]
        rintro ⟨_, isByte, _⟩
        exact differs isByte
      obtain ⟨_, _, behind⟩ := getElem_of_drop stands
      rw [splitBytes_of_kept stands kept, inductionHypothesis behind further, List.length_cons,
        List.foldl_cons, Nat.add_right_comm, Nat.add_assoc]

/-- The number of bytes of a text. -/
def size (text : List Char) : Nat :=
  (bytes (String.ofList text)).length

theorem size_append (first second : List Char) :
    size (first ++ second) = size first + size second := by
  rw [size, String.ofList_append, length_bytes_append, size, size]

theorem size_singleton (character : Char) :
    size [character] = (String.utf8EncodeChar character).length := by
  rw [size, bytes_ofList, List.flatMap_singleton]

theorem drop_size (before rest : List Char) :
    (bytes (String.ofList (before ++ rest))).drop (size before) =
      rest.flatMap String.utf8EncodeChar := by
  rw [size, bytes_ofList, bytes_ofList, List.flatMap_append, List.drop_left]

theorem slice_ofList (before part after : List Char) :
    slice? (String.ofList (before ++ part ++ after)) (size before) (size (before ++ part)) =
      some (String.ofList part) := by
  rw [size_append, String.ofList_append, String.ofList_append]
  exact slice_append _ _ _

/-- A character at which the text is not cut belongs to the part that is read. -/
theorem splitBytes_character (ascii : mark.toNat < 128) (noQuote : mark ≠ '"') {start : Nat}
    {character : Char} (kept : state = .outside → ¬[mark, mark] <+: character :: rest) :
    splitBytes? (.doubled mark) (String.ofList (before ++ character :: rest)) start (size before)
        state =
      splitBytes? (.doubled mark) (String.ofList (before ++ character :: rest)) start
        (size (before ++ [character])) (state.next character) := by
  have stands := drop_size before (character :: rest)
  rw [size_append, size_singleton]
  by_cases isMark : character = mark
  · subst isMark
    have noCut : ¬isCut (.doubled character) state
        (character.toUInt8 :: rest.flatMap String.utf8EncodeChar) := by
      rw [isCut_doubled_iff ascii noQuote, List.cons_prefix_cons,
        cons_prefix_flatMap_iff ascii]
      rintro ⟨isOutside, _, further, rfl, _⟩
      exact kept isOutside ⟨further, rfl⟩
    have next := foldl_nextByte state character
    rw [List.flatMap_cons] at stands
    rw [encode_of_lt ascii] at stands next ⊢
    rw [splitBytes_of_kept stands noCut, ← next]
    rfl
  · have absent : mark.toUInt8 ∉ String.utf8EncodeChar character := by
      rw [mem_encode_iff ascii]
      exact isMark
    rw [List.flatMap_cons] at stands
    rw [splitBytes_pass ascii noQuote stands absent, foldl_nextByte]

/-- The text is cut at a separator outside literals. -/
theorem splitBytes_separator (ascii : mark.toNat < 128) (noQuote : mark ≠ '"') {part : List Char} :
    splitBytes? (.doubled mark) (String.ofList (before ++ part ++ mark :: mark :: rest))
        (size before) (size (before ++ part)) .outside =
      (splitBytes? (.doubled mark) (String.ofList (before ++ part ++ mark :: mark :: rest))
        (size (before ++ part ++ [mark, mark])) (size (before ++ part ++ [mark, mark]))
          .outside).map (String.ofList part :: ·) := by
  have stands := drop_size (before ++ part) (mark :: mark :: rest)
  have cut : isCut (.doubled mark) .outside
      ((mark :: mark :: rest).flatMap String.utf8EncodeChar) := by
    rw [isCut_doubled_iff ascii noQuote, cons_prefix_flatMap_iff ascii]
    refine ⟨rfl, mark :: rest, rfl, ?_⟩
    rw [cons_prefix_flatMap_iff ascii]
    exact ⟨rest, rfl, List.nil_prefix⟩
  have behind : size (before ++ part) + (Separator.doubled mark).bytes.length =
      size (before ++ part ++ [mark, mark]) := by
    rw [size_append _ [mark, mark]]
    rfl
  rw [List.flatMap_cons, encode_of_lt ascii] at stands cut
  rw [splitBytes_of_cut stands cut, slice_ofList, behind]
  rfl

/-- What is left at the end of the text is the last part. -/
theorem splitBytes_last {part : List Char} :
    splitBytes? (.doubled mark) (String.ofList (before ++ part)) (size before)
      (size (before ++ part)) state = some [String.ofList part] := by
  have whole : (bytes (String.ofList (before ++ part))).length = size (before ++ part) := rfl
  have slice := slice_ofList before part []
  rw [List.append_nil] at slice
  rw [splitBytes_of_end (Nat.le_of_eq whole), whole, slice]
  rfl

/-- Bytes and characters give the same parts, whatever was read before. -/
theorem splitBytes_eq (ascii : mark.toNat < 128) (noQuote : mark ≠ '"') (state : LiteralState)
    (before reversed rest : List Char) :
    splitBytes? (.doubled mark) (String.ofList (before ++ reversed.reverse ++ rest)) (size before)
        (size (before ++ reversed.reverse)) state =
      some ((splitOutside mark state reversed rest).map String.ofList) := by
  induction state, reversed, rest using splitOutside.induct mark generalizing before with
  | case1 state reversed =>
      rw [List.append_nil, splitBytes_last]
      rfl
  | case2 state reversed last =>
      have kept : state = .outside → ¬[mark, mark] <+: [last] := by
        intro _ isPrefix
        have short := isPrefix.length_le
        contradiction
      rw [splitBytes_character ascii noQuote kept, List.append_assoc, ← List.reverse_cons,
        splitBytes_last]
      rfl
  | case3 state reversed first second rest isMark inductionHypothesis =>
      simp only [Bool.and_eq_true, beq_iff_eq] at isMark
      obtain ⟨⟨rfl, rfl⟩, rfl⟩ := isMark
      have later := inductionHypothesis (before ++ reversed.reverse ++ [second, second])
      rw [List.reverse_nil, List.append_nil, List.append_assoc _ [second, second]] at later
      rw [splitBytes_separator ascii noQuote, splitOutside, if_pos (by simp)]
      exact congrArg (Option.map (String.ofList reversed.reverse :: ·)) later
  | case4 state reversed first second rest noMark inductionHypothesis =>
      have kept : state = .outside → ¬[mark, mark] <+: first :: second :: rest := by
        rintro rfl isPrefix
        rw [List.cons_prefix_cons, List.cons_prefix_cons] at isPrefix
        obtain ⟨rfl, rfl, _⟩ := isPrefix
        simp at noMark
      have read := inductionHypothesis before
      rw [List.reverse_cons, ← List.append_assoc, List.append_assoc _ [first]] at read
      rw [splitOutside, if_neg noMark, splitBytes_character ascii noQuote kept]
      exact read

end

/-- A text is cut into parts at doubled marks outside literals, and no part shows such marks. -/
structure IsSplit (mark : Char) (text : List Char) (parts : List (List Char)) : Prop where
  joined : [mark, mark].intercalate parts = text
  outside : ∀ front rest, parts = front ++ rest → front ≠ [] → rest ≠ [] →
    ([mark, mark].intercalate front).foldl LiteralState.next .outside = .outside
  free : ∀ part ∈ parts, ∀ before after, part = before ++ mark :: mark :: after →
    before.foldl LiteralState.next .outside ≠ .outside

namespace IsSplit

variable {mark : Char} {part text : List Char} {parts : List (List Char)}

theorem single (free : ∀ before after, part = before ++ mark :: mark :: after →
    before.foldl LiteralState.next .outside ≠ .outside) : IsSplit mark part [part] := by
  refine ⟨List.intercalate_singleton, ?_, List.forall_mem_singleton.mpr free⟩
  intro front rest isSplit noFront noRest
  have short : front.length + rest.length = 1 := by
    rw [← List.length_append, ← isSplit]
    rfl
  have isFront := List.length_pos_of_ne_nil noFront
  have isRest := List.length_pos_of_ne_nil noRest
  omega

theorem cons (noQuote : mark ≠ '"') (closed : part.foldl LiteralState.next .outside = .outside)
    (free : ∀ before after, part = before ++ mark :: mark :: after →
      before.foldl LiteralState.next .outside ≠ .outside)
    (inhabited : parts ≠ []) (further : IsSplit mark text parts) :
    IsSplit mark (part ++ mark :: mark :: text) (part :: parts) := by
  have joined (others : List (List Char)) (isMore : others ≠ []) :
      [mark, mark].intercalate (part :: others) =
        part ++ mark :: mark :: [mark, mark].intercalate others := by
    obtain ⟨second, rest, rfl⟩ := List.exists_cons_of_ne_nil isMore
    rw [List.intercalate_cons_cons]
    simp
  refine ⟨?_, ?_, List.forall_mem_cons.mpr ⟨free, further.free⟩⟩
  · rw [joined parts inhabited, further.joined]
  · intro front rest isSplit noFront noRest
    obtain ⟨first, others, rfl⟩ := List.exists_cons_of_ne_nil noFront
    rw [List.cons_append, List.cons.injEq] at isSplit
    obtain ⟨rfl, isSplit⟩ := isSplit
    by_cases isLast : others = []
    · rw [isLast, List.intercalate_singleton, closed]
    · rw [joined others isLast, List.foldl_append, closed, List.foldl_cons, List.foldl_cons,
        LiteralState.next_outside noQuote, LiteralState.next_outside noQuote]
      exact further.outside others rest isSplit isLast noRest

end IsSplit

/-- Splitting goes on rightly if no two marks outside literals begin in what was read already. -/
theorem isSplit_of_read {mark : Char} (noQuote : mark ≠ '"') {state : LiteralState}
    {reversed text : List Char}
    (isState : reversed.reverse.foldl LiteralState.next .outside = state)
    (free : ∀ before after, reversed.reverse ++ text = before ++ mark :: mark :: after →
      before.length < reversed.length → before.foldl LiteralState.next .outside ≠ .outside) :
    IsSplit mark (reversed.reverse ++ text) (splitOutside mark state reversed text) := by
  induction state, reversed, text using splitOutside.induct mark with
  | case1 state reversed =>
      rw [List.append_nil] at free ⊢
      refine .single fun before after isPart => free before after isPart ?_
      have length := congrArg List.length isPart
      simp only [List.length_reverse, List.length_append, List.length_cons] at length
      omega
  | case2 state reversed last =>
      rw [← List.reverse_cons] at free ⊢
      refine .single fun before after isPart => free before after isPart ?_
      have length := congrArg List.length isPart
      simp only [List.length_reverse, List.length_append, List.length_cons] at length
      omega
  | case3 state reversed first second rest isMark inductionHypothesis =>
      simp only [Bool.and_eq_true, beq_iff_eq] at isMark
      obtain ⟨⟨rfl, rfl⟩, rfl⟩ := isMark
      rw [splitOutside, if_pos (by simp)]
      refine .cons noQuote isState ?_ (splitOutside_ne_nil _ _ _ _) (inductionHypothesis rfl ?_)
      · intro before after isPart
        apply free before (after ++ second :: second :: rest)
        · rw [isPart]
          simp
        · have length := congrArg List.length isPart
          simp only [List.length_reverse, List.length_append, List.length_cons] at length
          omega
      · intro before after _ short
        exact absurd short (Nat.not_lt_zero _)
  | case4 state reversed first second rest noMark inductionHypothesis =>
      have whole : reversed.reverse ++ first :: second :: rest =
          (first :: reversed).reverse ++ second :: rest := by simp
      rw [splitOutside, if_neg noMark, whole]
      apply inductionHypothesis
      · rw [List.reverse_cons, List.foldl_append, isState]
        rfl
      · intro before after isText short
        rw [← whole] at isText
        rw [List.length_cons, Nat.lt_succ_iff_lt_or_eq] at short
        rcases short with short | ends
        · exact free before after isText short
        · have sameLength : reversed.reverse.length = before.length := by
            rw [List.length_reverse, ends]
          obtain ⟨isBefore, isRest⟩ := List.append_inj isText sameLength
          simp only [List.cons.injEq] at isRest
          obtain ⟨rfl, rfl, _⟩ := isRest
          rw [← isBefore, isState]
          rintro rfl
          simp at noMark

theorem splitBytes_eq_splitOutside {mark : Char} (ascii : mark.toNat < 128) (noQuote : mark ≠ '"')
    (text : String) :
    splitBytes? (.doubled mark) text 0 0 .outside =
      some ((splitOutside mark .outside [] text.toList).map String.ofList) := by
  have read := splitBytes_eq ascii noQuote .outside [] [] text.toList
  rwa [List.reverse_nil, List.nil_append, List.nil_append, String.ofList_toList] at read

/-- The bytes of a condition give the comparisons that are evaluated. -/
theorem clauses_eq_splitBytes (condition : String) :
    ((splitBytes? (.doubled '|') condition 0 0 .outside).bind fun alternatives =>
        alternatives.mapM fun alternative => splitBytes? (.doubled '&') alternative 0 0 .outside) =
      some ((clauses condition).map fun comparisons => comparisons.map String.ofList) := by
  have each (alternative : String) : splitBytes? (.doubled '&') alternative 0 0 .outside =
      some ((splitOutside '&' .outside [] alternative.toList).map String.ofList) :=
    splitBytes_eq_splitOutside (by decide) (by decide) alternative
  rw [splitBytes_eq_splitOutside (by decide) (by decide), Option.bind_some,
    Outcome.mapM_eq_some_iff, clauses, List.map_map, List.forall₂_map_left_iff,
    List.forall₂_map_right_iff, List.forall₂_same]
  intro alternative _
  rw [each, String.toList_ofList]
  rfl

/-- The bytes of a text are split without a fault into the parts that its characters have. -/
theorem splitBytes_exact {mark : Char} (isMark : mark = '|' ∨ mark = '&') (text : String) :
    splitBytes? (.doubled mark) text 0 0 .outside =
        some ((splitOutside mark .outside [] text.toList).map String.ofList) ∧
      IsSplit mark text.toList (splitOutside mark .outside [] text.toList) := by
  have ascii : mark.toNat < 128 := by rcases isMark with rfl | rfl <;> decide
  have noQuote : mark ≠ '"' := by rcases isMark with rfl | rfl <;> decide
  have isSplit : IsSplit mark ([].reverse ++ text.toList)
      (splitOutside mark .outside [] text.toList) := by
    apply isSplit_of_read noQuote rfl
    intro before after _ short
    exact absurd short (Nat.not_lt_zero _)
  exact ⟨splitBytes_eq_splitOutside ascii noQuote text, isSplit⟩

theorem splitBytes_exact_escaped :
    ('|' = '|' ∨ '|' = '&') ∧
      splitBytes? (.doubled '|') "a == \"\\é||\"|||b" 0 0 .outside =
        some ["a == \"\\é||\"", "|b"] := by
  have isMark : '|' = '|' ∨ '|' = '&' := .inl rfl
  refine ⟨isMark, ?_⟩
  rw [(splitBytes_exact isMark "a == \"\\é||\"|||b").1]
  decide

end Phrasebook.Condition
