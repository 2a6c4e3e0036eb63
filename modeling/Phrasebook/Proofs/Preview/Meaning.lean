/-
This file compares the evaluation of conditions with their meaning as expressions of the generated
language. The main statement is that both agree where no literal has an escape that the evaluation
does not know.
-/

import Phrasebook.Proofs.Preview.Clause
import Phrasebook.Proofs.Preview.Symbol

namespace Phrasebook

open Text

namespace Condition

open Expression

/-- The characters behind a backslash in the literals of a text. -/
def escapes (state : LiteralState) : List Char → List Char
  | [] => []
  | character :: rest =>
      (if state == .escaped then [character] else []) ++ escapes (state.next character) rest

/-- The characters that the evaluation takes for themselves behind a backslash, though in the
generated language they begin the escape of another character. -/
def misread : List Char :=
  ['r', '0', 'x', 'u']

/-- A text whose literals mean what the evaluation takes them for. -/
def Faithful (state : LiteralState) (text : List Char) : Prop :=
  ∀ character ∈ escapes state text, character ∉ misread

theorem escapes_append (state : LiteralState) (first second : List Char) :
    escapes state (first ++ second) =
      escapes state first ++ escapes (first.foldl LiteralState.next state) second := by
  induction first generalizing state with
  | nil => rfl
  | cons character rest inductionHypothesis =>
      rw [List.cons_append, escapes, escapes, inductionHypothesis, List.append_assoc]
      rfl

theorem faithful_append_iff {state : LiteralState} {first second : List Char} :
    Faithful state (first ++ second) ↔
      Faithful state first ∧ Faithful (first.foldl LiteralState.next state) second := by
  rw [Faithful, escapes_append, List.forall_mem_append]
  rfl

/-- A known escape is read as the evaluation reads it. -/
theorem escapeNext_of_known {character : Char} {after : EscapeState} {complete : List Char}
    (known : character ∉ misread)
    (isNext : EscapeState.escapeNext character = some (after, complete)) :
    after = .plain ∧ complete = [unescape character] := by
  rw [EscapeState.escapeNext.eq_def] at isNext
  split at isNext
  all_goals first
    | cases isNext
      exact ⟨rfl, rfl⟩
    | exact absurd (by decide) known
    | cases isNext

/-- Another escape gives another character, or none before further ones are read. -/
theorem escapeNext_of_misread {character : Char} {after : EscapeState} {complete : List Char}
    (isMisread : character ∈ misread)
    (isNext : EscapeState.escapeNext character = some (after, complete)) :
    after ≠ .escaped ∧
      (complete = [] ∨ ∃ other, complete = [other] ∧ other ≠ unescape character) := by
  simp only [misread, List.mem_cons, List.not_mem_nil, or_false] at isMisread
  rcases isMisread with rfl | rfl | rfl | rfl
  · cases isNext
    exact ⟨by decide, .inr ⟨_, rfl, by decide⟩⟩
  · cases isNext
    exact ⟨by decide, .inr ⟨_, rfl, by decide⟩⟩
  · cases isNext
    exact ⟨by decide, .inl rfl⟩
  · cases isNext
    exact ⟨by decide, .inl rfl⟩

/-- No step inside a literal completes more than one character, and only a backslash leads behind
a backslash. -/
theorem length_of_next {state after : EscapeState} {character : Char} {complete : List Char}
    (isNext : state.next character = some (after, complete)) :
    complete.length ≤ 1 ∧ (after = .escaped → state = .plain ∧ character = '\\') := by
  cases state with
  | plain =>
      simp only [EscapeState.next] at isNext
      split at isNext
      · rename_i isBackslash
        cases isNext
        exact ⟨Nat.zero_le 1, fun _ => ⟨rfl, eq_of_beq isBackslash⟩⟩
      · split at isNext
        · cases isNext
        · cases isNext
          exact ⟨Nat.le_refl 1, fun never => by cases never⟩
  | escaped =>
      by_cases isMisread : character ∈ misread
      · obtain ⟨unescaped, differs⟩ := escapeNext_of_misread isMisread isNext
        refine ⟨?_, fun never => absurd never unescaped⟩
        rcases differs with rfl | ⟨_, rfl, _⟩
        · exact Nat.zero_le 1
        · exact Nat.le_refl 1
      · obtain ⟨rfl, rfl⟩ := escapeNext_of_known isMisread isNext
        exact ⟨Nat.le_refl 1, fun never => by cases never⟩
  | byte =>
      simp only [EscapeState.next] at isNext
      split at isNext
      · obtain ⟨_, same⟩ := Option.ite_none_right_eq_some.mp isNext
        cases same
        exact ⟨Nat.zero_le 1, fun never => by cases never⟩
      · cases isNext
  | byteDigit high =>
      simp only [EscapeState.next] at isNext
      split at isNext
      · cases isNext
        exact ⟨Nat.le_refl 1, fun never => by cases never⟩
      · cases isNext
  | code =>
      obtain ⟨_, same⟩ := Option.ite_none_right_eq_some.mp isNext
      cases same
      exact ⟨Nat.zero_le 1, fun never => by cases never⟩
  | codeDigits count value =>
      simp only [EscapeState.next, EscapeState.codeNext] at isNext
      split at isNext
      · obtain ⟨_, same⟩ := Option.ite_none_right_eq_some.mp isNext
        cases same
        exact ⟨Nat.le_refl 1, fun never => by cases never⟩
      · split at isNext
        · obtain ⟨_, same⟩ := Option.ite_none_right_eq_some.mp isNext
          cases same
          exact ⟨Nat.zero_le 1, fun never => by cases never⟩
        · split at isNext
          · obtain ⟨_, same⟩ := Option.ite_none_right_eq_some.mp isNext
            cases same
            exact ⟨Nat.zero_le 1, fun never => by cases never⟩
          · cases isNext

/-- A literal ends where it is read to end, with no more characters than the evaluation reads. -/
theorem Unescapes.scan_literal {inner read : List Char} (unescapes : Unescapes inner read)
    {state : EscapeState} (unescaped : state ≠ .escaped) {done rest : List Char} {after : Stage}
    {written : List Symbol}
    (scanned : scan Stage.next (.literal state done) (inner ++ '"' :: rest) =
      some (after, written)) :
    ∃ text more, scan Stage.next .closed rest = some (after, more) ∧
      written = .operand (.literal (String.ofList (done ++ text))) :: more ∧
        text.length ≤ read.length := by
  induction unescapes using Unescapes.byCharacter generalizing state done written with
  | nil =>
      obtain ⟨middle, first, more, isNext, isRest, rfl⟩ := scan_cons_eq_some_iff.mp scanned
      cases state with
      | plain =>
          cases isNext
          exact ⟨[], more, isRest, by rw [List.append_nil]; rfl, Nat.le_refl 0⟩
      | escaped => exact absurd rfl unescaped
      | _ => cases isNext
  | @plain character inner read noQuote noBackslash _ inductionHypothesis =>
      obtain ⟨middle, first, more, isNext, isRest, rfl⟩ := scan_cons_eq_some_iff.mp scanned
      rw [Stage.next, if_neg (by simp [noQuote])] at isNext
      obtain ⟨⟨reached, complete⟩, isStep, same⟩ := Option.map_eq_some_iff.mp isNext
      cases same
      obtain ⟨short, isEscaped⟩ := length_of_next isStep
      obtain ⟨text, others, isClosed, rfl, shorter⟩ :=
        inductionHypothesis (fun escaped => noBackslash (isEscaped escaped).2) isRest
      refine ⟨complete ++ text, others, isClosed, by simp, ?_⟩
      rw [List.length_append, List.length_cons]
      omega
  | @escape character inner read noFeed _ inductionHypothesis =>
      obtain ⟨middle, first, more, isNext, isRest, rfl⟩ := scan_cons_eq_some_iff.mp scanned
      cases state with
      | plain =>
          cases isNext
          obtain ⟨middle, first, more, isNext, isInner, rfl⟩ := scan_cons_eq_some_iff.mp isRest
          obtain ⟨⟨reached, complete⟩, isEscape, same⟩ := Option.map_eq_some_iff.mp isNext
          cases same
          obtain ⟨short, isEscaped⟩ := length_of_next isEscape
          have stays : reached ≠ .escaped := fun escaped => by cases (isEscaped escaped).1
          obtain ⟨text, others, isClosed, rfl, shorter⟩ := inductionHypothesis stays isInner
          refine ⟨complete ++ text, others, isClosed, by simp, ?_⟩
          rw [List.length_append, List.length_cons]
          omega
      | escaped => exact absurd rfl unescaped
      | _ => cases isNext

/-- A literal has the text that the evaluation reads exactly where all its escapes are known. -/
theorem Unescapes.scan_plain {inner read : List Char} (unescapes : Unescapes inner read)
    {done rest : List Char} {after : Stage} {written : List Symbol}
    (scanned : scan Stage.next (.literal .plain done) (inner ++ '"' :: rest) =
      some (after, written)) :
    ∃ text more, scan Stage.next .closed rest = some (after, more) ∧
      written = .operand (.literal (String.ofList (done ++ text))) :: more ∧
        (text = read ↔ Faithful .inside inner) := by
  induction unescapes using Unescapes.byCharacter generalizing done written with
  | nil =>
      obtain ⟨middle, first, more, isNext, isRest, rfl⟩ := scan_cons_eq_some_iff.mp scanned
      cases isNext
      refine ⟨[], more, isRest, by rw [List.append_nil]; rfl, ?_⟩
      simp [Faithful, escapes]
  | @plain character inner read noQuote noBackslash _ inductionHypothesis =>
      obtain ⟨middle, first, more, isNext, isRest, rfl⟩ := scan_cons_eq_some_iff.mp scanned
      have noReturn : character ≠ '\r' := by
        rintro rfl
        cases isNext
      have isPlain : (Stage.literal .plain done).next character =
          some (.literal .plain (done ++ [character]), []) := by
        simp [Stage.next, noQuote, EscapeState.next_plain noBackslash noQuote noReturn]
      cases isPlain.symm.trans isNext
      have inside : LiteralState.inside.next character = .inside := by
        simp [LiteralState.next, noQuote, noBackslash]
      obtain ⟨text, further, isClosed, rfl, same⟩ := inductionHypothesis isRest
      refine ⟨character :: text, further, isClosed, by simp, ?_⟩
      rw [Faithful, escapes, inside]
      exact List.cons_inj_right character |>.trans same
  | @escape character inner read noFeed rest inductionHypothesis =>
      obtain ⟨middle, first, more, isNext, isRest, rfl⟩ := scan_cons_eq_some_iff.mp scanned
      cases isNext
      obtain ⟨middle, first, more, isNext, isInner, rfl⟩ := scan_cons_eq_some_iff.mp isRest
      obtain ⟨⟨state, complete⟩, isEscape, same⟩ := Option.map_eq_some_iff.mp isNext
      cases same
      have faithful_iff : Faithful .inside ('\\' :: character :: inner) ↔
          character ∉ misread ∧ Faithful .inside inner := List.forall_mem_cons
      by_cases isMisread : character ∈ misread
      · obtain ⟨unescaped, differs⟩ := escapeNext_of_misread isMisread isEscape
        obtain ⟨text, others, isClosed, rfl, short⟩ := rest.scan_literal unescaped isInner
        refine ⟨complete ++ text, others, isClosed, by simp, ?_⟩
        have noFaith : ¬Faithful .inside ('\\' :: character :: inner) := fun faithful =>
          (faithful_iff.mp faithful).1 isMisread
        refine iff_of_false ?_ noFaith
        intro same
        -- the escape gives another character, or none yet, and then the text stays too short
        rcases differs with rfl | ⟨other, rfl, differs⟩
        · rw [List.nil_append] at same
          rw [same, List.length_cons] at short
          omega
        · exact differs (List.cons.inj same).1
      · obtain ⟨rfl, rfl⟩ := escapeNext_of_known isMisread isEscape
        obtain ⟨text, others, isClosed, rfl, same⟩ := inductionHypothesis isInner
        refine ⟨unescape character :: text, others, isClosed, by simp, ?_⟩
        simp [faithful_iff, isMisread, same]

theorem escapes_of_noQuote {text : List Char} (noQuote : '"' ∉ text) :
    escapes .outside text = [] := by
  induction text with
  | nil => rfl
  | cons character rest inductionHypothesis =>
      rw [List.mem_cons, not_or] at noQuote
      obtain ⟨differs, further⟩ := noQuote
      rw [escapes, LiteralState.next]
      simpa [Ne.symm differs] using inductionHypothesis further

/-- After the text of an operand one operand is complete, the very one that the evaluation takes
if all its escapes are known. -/
theorem Spells.scan_eq {text : List Char} {operand : Operand} (spells : Spells text operand)
    {after : Stage} {written : List Symbol}
    (scanned : scan Stage.next .between text = some (after, written)) :
    after.Resting ∧ ∀ pending, after.finish? = some pending →
      ∃ found, written ++ pending = [.operand found] ∧
        (found = operand ↔ Faithful .outside text) := by
  cases spells with
  | parameter formed =>
      have named := isName_iff.mpr formed
      have closed := escapes_of_noQuote
        (not_mem_of_all (by decide) (all_continuesName_of_isName named))
      cases text with
      | nil => cases named
      | cons first rest =>
          rw [isName, Bool.and_eq_true] at named
          have isFirst : Stage.between.next first = some (.word [first], []) := by
            rw [Stage.next, Stage.enter?, if_pos named.1]
            rfl
          have isWord := scan_cons isFirst (Stage.scan_word named.2 [first])
          cases isWord.symm.trans scanned
          refine ⟨trivial, ?_⟩
          intro pending isPending
          obtain ⟨symbol, isName, rfl⟩ := Option.map_eq_some_iff.mp isPending
          obtain ⟨_, same⟩ := Option.ite_none_right_eq_some.mp isName
          cases same
          refine ⟨_, rfl, iff_of_true (by simp) ?_⟩
          rw [Faithful, closed]
          exact List.forall_mem_nil _
  | @literal inner read unescapes =>
      obtain ⟨middle, first, more, isNext, isRest, rfl⟩ := scan_cons_eq_some_iff.mp scanned
      cases isNext
      obtain ⟨found, further, isClosed, rfl, same⟩ := unescapes.scan_plain isRest
      cases isClosed
      refine ⟨trivial, ?_⟩
      intro pending isPending
      cases isPending
      refine ⟨_, rfl, ?_⟩
      have isInside : Faithful .outside ('"' :: inner ++ ['"']) ↔ Faithful .inside inner := by
        rw [List.cons_append, Faithful, escapes]
        change Faithful .inside (inner ++ ['"']) ↔ _
        rw [faithful_append_iff, unescapes.foldl_next]
        exact and_iff_left (List.forall_mem_nil _)
      rw [isInside, ← same]
      simp [String.ofList_inj]

/-- Wherever a text stands before an operator or the end, it is read as so many symbols, the very
ones if all its escapes are known. -/
structure Amounts (text : List Char) (symbols : List Symbol) : Prop where
  closed : text.foldl LiteralState.next .outside = .outside
  atEnd : ∀ found, symbols? text = some found →
    found.length = symbols.length ∧ (found = symbols ↔ Faithful .outside text)
  before : ∀ first second operator rest found,
    operatorSymbol? first second = some operator →
      symbols? (text ++ first :: second :: rest) = some found →
        ∃ head further, symbols? rest = some further ∧ found = head ++ operator :: further ∧
          head.length = symbols.length ∧ (head = symbols ↔ Faithful .outside text)

/-- An operand with blanks around it is one symbol. -/
theorem Surrounds.scan_eq {text : List Char} {operand : Operand}
    (surrounds : Surrounds text operand) {after : Stage} {written : List Symbol}
    (scanned : scan Stage.next .between text = some (after, written)) :
    after.Resting ∧ ∀ pending, after.finish? = some pending →
      ∃ found, written ++ pending = [.operand found] ∧
        (found = operand ↔ Faithful .outside text) := by
  obtain ⟨before, spelled, behind, rfl, gapBefore, spells, gapBehind⟩ := surrounds
  obtain ⟨reached, first, last, isFirst, isBehind, rfl⟩ := scan_append_eq_some_iff.mp scanned
  obtain ⟨middle, none, second, isBefore, isSpelled, rfl⟩ := scan_append_eq_some_iff.mp isFirst
  obtain ⟨rfl, rfl⟩ := Stage.scan_blanks_between (isGap_iff.mp gapBefore) isBefore
  have faithful_iff : Faithful .outside (before ++ spelled ++ behind) ↔
      Faithful .outside spelled := by
    have noneBefore : '"' ∉ before := gapBefore.not_mem (by decide)
    have noneBehind : '"' ∉ behind := gapBehind.not_mem (by decide)
    rw [Faithful, Faithful, escapes_append, escapes_append, List.foldl_append,
      foldl_next_of_noQuote noneBefore, spells.foldl_next, escapes_of_noQuote noneBefore,
      escapes_of_noQuote noneBehind, List.nil_append, List.append_nil]
  obtain ⟨resting, isOperand⟩ := spells.scan_eq isSpelled
  obtain ⟨rests, isPassed⟩ := Stage.scan_blanks resting (isGap_iff.mp gapBehind) isBehind
  refine ⟨rests, ?_⟩
  intro pending isPending
  rw [List.nil_append, List.append_assoc, faithful_iff]
  exact isOperand _ (isPassed pending isPending)

theorem Surrounds.amounts {text : List Char} {operand : Operand}
    (surrounds : Surrounds text operand) : Amounts text [.operand operand] := by
  have same : ∀ found : Operand,
      [Symbol.operand found] = [.operand operand] ↔ found = operand := by simp
  refine ⟨?_, ?_, ?_⟩
  · obtain ⟨before, spelled, behind, rfl, gapBefore, spells, gapBehind⟩ := surrounds
    rw [List.foldl_append, List.foldl_append,
      foldl_next_of_noQuote (gapBefore.not_mem (by decide)), spells.foldl_next,
      foldl_next_of_noQuote (gapBehind.not_mem (by decide))]
  · intro found isFound
    obtain ⟨after, written, pending, scanned, isPending, rfl⟩ := symbols_eq_some_iff.mp isFound
    obtain ⟨taken, isTaken, faithful⟩ := (surrounds.scan_eq scanned).2 pending isPending
    rw [isTaken, same]
    exact ⟨rfl, faithful⟩
  · intro first second operator rest found isOperator isFound
    obtain ⟨after, written, pending, scanned, isPending, rfl⟩ := symbols_eq_some_iff.mp isFound
    obtain ⟨reached, start, more, isText, isRest, rfl⟩ := scan_append_eq_some_iff.mp scanned
    obtain ⟨resting, isOperand⟩ := surrounds.scan_eq isText
    obtain ⟨middle, last, more, isFirst, isRest, rfl⟩ := scan_cons_eq_some_iff.mp isRest
    obtain ⟨rfl, isFinished⟩ :=
      Stage.next_operator resting (startsOperator_of_symbol isOperator).1 isFirst
    obtain ⟨middle, symbol, further, isSecond, isFurther, rfl⟩ :=
      scan_cons_eq_some_iff.mp isRest
    rw [Stage.next, isOperator] at isSecond
    cases isSecond
    obtain ⟨taken, isTaken, faithful⟩ := isOperand _ isFinished
    refine ⟨[.operand taken], further ++ pending,
      symbols_eq_some_iff.mpr ⟨_, _, _, isFurther, isPending, rfl⟩, ?_, rfl, ?_⟩
    · rw [← isTaken]
      simp
    · rw [same]
      exact faithful

/-- Texts that amount to symbols do so with an operator between them. -/
theorem Amounts.append {first second : List Char} {symbols others : List Symbol}
    (isFirst : Amounts first symbols) (isSecond : Amounts second others) {mark next : Char}
    {operator : Symbol} (isOperator : operatorSymbol? mark next = some operator) :
    Amounts (first ++ mark :: next :: second) (symbols ++ operator :: others) := by
  obtain ⟨starts, noQuote⟩ := startsOperator_of_symbol isOperator
  have isMark : LiteralState.outside.next mark = .outside := by
    have quoted : mark ≠ '"' := by
      rintro rfl
      exact absurd starts (by decide)
    simp [LiteralState.next, quoted]
  have isNext : LiteralState.outside.next next = .outside := by
    simp [LiteralState.next, noQuote]
  have faithful_iff : Faithful .outside (first ++ mark :: next :: second) ↔
      Faithful .outside first ∧ Faithful .outside second := by
    have same : escapes .outside (mark :: next :: second) = escapes .outside second := by
      rw [escapes, escapes, isMark, isNext]
      rfl
    rw [faithful_append_iff, isFirst.closed, Faithful, Faithful, Faithful, same]
  -- the lengths say which of the operators is the one between the texts
  have same_iff : ∀ {head further : List Symbol}, head.length = symbols.length →
      (head ++ operator :: further = symbols ++ operator :: others ↔
        head = symbols ∧ further = others) := by
    intro head further sameLength
    constructor
    · intro same
      obtain ⟨left, right⟩ := List.append_inj same sameLength
      exact ⟨left, (List.cons.inj right).2⟩
    · rintro ⟨rfl, rfl⟩
      rfl
  refine ⟨?_, ?_, ?_⟩
  · rw [List.foldl_append, isFirst.closed, List.foldl_cons, List.foldl_cons, isMark, isNext,
      isSecond.closed]
  · intro found isFound
    obtain ⟨head, further, isFurther, rfl, sameLength, left⟩ :=
      isFirst.before _ _ _ _ _ isOperator isFound
    obtain ⟨furtherLength, right⟩ := isSecond.atEnd _ isFurther
    rw [faithful_iff, same_iff sameLength, left, right]
    exact ⟨by simp [sameLength, furtherLength], Iff.rfl⟩
  · intro third fourth other rest found isOther isFound
    rw [List.append_assoc] at isFound
    obtain ⟨head, further, isFurther, rfl, sameLength, left⟩ :=
      isFirst.before _ _ _ _ _ isOperator isFound
    obtain ⟨middle, last, isLast, rfl, middleLength, right⟩ :=
      isSecond.before _ _ _ _ _ isOther isFurther
    refine ⟨head ++ operator :: middle, last, isLast, by simp, ?_, ?_⟩
    · simp [sameLength, middleLength]
    · rw [faithful_iff, same_iff sameLength, left, right]

/-- Texts with a doubled mark between them amount to their symbols with the operator between. -/
theorem Amounts.intercalate {mark : Char} {operator : Symbol}
    (isOperator : operatorSymbol? mark mark = some operator) {texts : List (List Char)}
    {symbols : List (List Symbol)} (each : List.Forall₂ Amounts texts symbols)
    (inhabited : texts ≠ []) :
    Amounts ([mark, mark].intercalate texts) ([operator].intercalate symbols) := by
  induction each with
  | nil => exact absurd rfl inhabited
  | cons first rest inductionHypothesis =>
      cases rest with
      | nil => simpa using first
      | cons second others =>
          have further := inductionHypothesis (List.cons_ne_nil _ _)
          rw [List.intercalate_cons_cons, List.intercalate_cons_cons, List.append_assoc,
            List.append_assoc]
          exact first.append further isOperator

/-- The symbols of a comparison. -/
def comparisonSymbols (comparison : Comparison) : List Symbol :=
  [.operand comparison.left, if comparison.equal then .equals else .differs,
    .operand comparison.right]

def clauseSymbols (clause : List Comparison) : List Symbol :=
  [Symbol.and].intercalate (clause.map comparisonSymbols)

def formulaSymbols (formula : Formula) : List Symbol :=
  [Symbol.or].intercalate (formula.map clauseSymbols)

theorem amounts_comparison {text : List Char} {comparison : Comparison}
    (isComparison : comparison? text = some comparison) :
    Amounts text (comparisonSymbols comparison) := by
  obtain ⟨left, right, isLeft, isRight, rfl⟩ := comparison_eq_some isComparison
  rw [comparisonSymbols, List.append_assoc]
  cases comparison.equal with
  | true => exact isLeft.amounts.append isRight.amounts rfl
  | false => exact isLeft.amounts.append isRight.amounts rfl

theorem amounts_clause {text : List Char} {clause : List Comparison}
    (isClause : List.Forall₂ (fun text comparison => comparison? text = some comparison)
      (splitOutside '&' .outside [] text) clause) : Amounts text (clauseSymbols clause) := by
  have whole := intercalate_splitOutside '&' .outside [] text
  have each : List.Forall₂ Amounts (splitOutside '&' .outside [] text)
      (clause.map comparisonSymbols) := by
    rw [List.forall₂_map_right_iff]
    exact isClause.imp fun _ _ isComparison => amounts_comparison isComparison
  have isOperator : operatorSymbol? '&' '&' = some .and := rfl
  have amounts := Amounts.intercalate isOperator each (splitOutside_ne_nil _ _ _ _)
  rw [whole] at amounts
  exact amounts

/-- A condition amounts to the symbols of its comparisons. -/
theorem Reads.amounts {condition : String} {formula : Formula} (reads : Reads condition formula) :
    Amounts condition.toList (formulaSymbols formula) := by
  have whole := intercalate_splitOutside '|' .outside [] condition.toList
  have each : List.Forall₂ Amounts (splitOutside '|' .outside [] condition.toList)
      (formula.map clauseSymbols) := by
    rw [Reads, clauses, List.forall₂_map_left_iff] at reads
    rw [List.forall₂_map_right_iff]
    exact reads.imp fun _ _ isClause => amounts_clause isClause
  have isOperator : operatorSymbol? '|' '|' = some .or := rfl
  have amounts := Amounts.intercalate isOperator each (splitOutside_ne_nil _ _ _ _)
  rw [whole] at amounts
  exact amounts

theorem comparison_symbols (comparison : Comparison) :
    Expression.comparison? (.operand comparison.left)
      (if comparison.equal then .equals else .differs) (.operand comparison.right) =
      some comparison := by
  obtain ⟨left, equal, right⟩ := comparison
  cases equal <;> rfl

/-- A clause is read whole, at the end or before further alternatives. -/
theorem formula_clauseSymbols {clause : List Comparison} (inhabited : clause ≠ []) :
    formula? (clauseSymbols clause) = some [clause] ∧
      ∀ rest, formula? (clauseSymbols clause ++ .or :: rest) =
        (formula? rest).map (clause :: ·) := by
  induction clause with
  | nil => exact absurd rfl inhabited
  | cons comparison others inductionHypothesis =>
      have isComparison := comparison_symbols comparison
      cases others with
      | nil =>
          constructor
          · simp [clauseSymbols, comparisonSymbols, formula?, isComparison]
          · intro rest
            simp only [clauseSymbols, comparisonSymbols, List.map_cons, List.map_nil,
              List.intercalate_singleton, List.cons_append, List.nil_append, formula?,
              isComparison]
            cases formula? rest <;> rfl
      | cons second more =>
          obtain ⟨atEnd, before⟩ := inductionHypothesis (List.cons_ne_nil _ _)
          have isSymbols : clauseSymbols (comparison :: second :: more) =
              comparisonSymbols comparison ++ .and :: clauseSymbols (second :: more) := by
            simp [clauseSymbols, List.intercalate_cons_cons]
          rw [isSymbols]
          constructor
          · simp [comparisonSymbols, formula?, isComparison, atEnd]
          · intro rest
            simp only [comparisonSymbols, List.cons_append, List.nil_append, formula?,
              isComparison, before]
            cases formula? rest <;> rfl

theorem formula_formulaSymbols {formula : Formula} (inhabited : formula ≠ [])
    (each : ∀ clause ∈ formula, clause ≠ []) :
    formula? (formulaSymbols formula) = some formula := by
  induction formula with
  | nil => exact absurd rfl inhabited
  | cons clause others inductionHypothesis =>
      obtain ⟨first, further⟩ := List.forall_mem_cons.mp each
      cases others with
      | nil => simpa [formulaSymbols] using (formula_clauseSymbols first).1
      | cons second more =>
          have isSymbols : formulaSymbols (clause :: second :: more) =
              clauseSymbols clause ++ .or :: formulaSymbols (second :: more) := by
            simp [formulaSymbols, List.intercalate_cons_cons]
          rw [isSymbols, (formula_clauseSymbols first).2,
            inductionHypothesis (List.cons_ne_nil _ _) further]
          rfl

/-- What is read of a condition has alternatives, and each of them has comparisons. -/
theorem Reads.inhabited {condition : String} {formula : Formula}
    (reads : Reads condition formula) : formula ≠ [] ∧ ∀ clause ∈ formula, clause ≠ [] := by
  constructor
  · rintro rfl
    have none := List.forall₂_nil_right_iff.mp reads
    exact splitOutside_ne_nil _ _ _ _ (List.map_eq_nil_iff.mp none)
  · intro clause member isEmpty
    obtain ⟨alternative, isAlternative, isClause⟩ := Lists.exists_of_mem_right reads member
    obtain ⟨text, _, rfl⟩ := List.mem_map.mp isAlternative
    rw [isEmpty, List.forall₂_nil_right_iff] at isClause
    exact splitOutside_ne_nil _ _ _ _ isClause

/-- A condition that evaluates, and that can be read as an expression of the generated language, is
evaluated as the expression with the same symbols if and only if the evaluation knows all the
escapes of its literals, and then has the value of that expression. -/
theorem evaluate_eq_meaning {condition : String} {arguments : Arguments} {flag : Bool}
    (evaluated : evaluate condition arguments = .ok flag)
    (readable : (symbols? condition.toList).isSome) :
    (∃ formula, Reads condition formula ∧ value? arguments formula = some flag ∧
      (symbols? condition.toList = some (formulaSymbols formula) ↔
        Faithful .outside condition.toList)) ∧
      (Faithful .outside condition.toList → meaning? condition arguments = some flag) := by
  obtain ⟨formula, reads, isValue⟩ := evaluate_eq_ok_iff.mp evaluated
  obtain ⟨found, isFound⟩ := Option.isSome_iff_exists.mp readable
  have same := (reads.amounts.atEnd found isFound).2
  refine ⟨⟨formula, reads, isValue, ?_⟩, ?_⟩
  · rw [isFound, Option.some_inj, same]
  · intro faithful
    obtain ⟨inhabited, each⟩ := reads.inhabited
    rw [meaning?, isFound, Option.bind_some, same.mpr faithful,
      formula_formulaSymbols inhabited each, Option.bind_some, isValue]

/-- Values for two names. -/
def sampleArguments : Arguments :=
  fun name => if name = "a" then some "x\ty" else if name = "b" then some "||" else none

theorem evaluate_eq_meaning_tab :
    evaluate "a == \"x\\ty\" && b != \"\\\"\" || b == a" sampleArguments = .ok true ∧
      (symbols? "a == \"x\\ty\" && b != \"\\\"\" || b == a".toList).isSome ∧
      Faithful .outside "a == \"x\\ty\" && b != \"\\\"\" || b == a".toList ∧
      meaning? "a == \"x\\ty\" && b != \"\\\"\" || b == a" sampleArguments = some true := by
  have evaluated : evaluate "a == \"x\\ty\" && b != \"\\\"\" || b == a" sampleArguments =
      .ok true := by
    decide +kernel
  have readable : (symbols? "a == \"x\\ty\" && b != \"\\\"\" || b == a".toList).isSome := by
    decide +kernel
  have known : escapes .outside "a == \"x\\ty\" && b != \"\\\"\" || b == a".toList =
      ['t', '"'] := by
    decide +kernel
  have faithful : Faithful .outside "a == \"x\\ty\" && b != \"\\\"\" || b == a".toList := by
    rw [Faithful, known]
    simp [misread]
  exact ⟨evaluated, readable, faithful, (evaluate_eq_meaning evaluated readable).2 faithful⟩

/-- The escape of a carriage return is taken for the letter. -/
theorem not_evaluate_eq_meaning : ¬∀ (condition : String) (arguments : Arguments) (flag : Bool),
    evaluate condition arguments = .ok flag → (symbols? condition.toList).isSome →
      meaning? condition arguments = some flag := by
  intro every
  have evaluated : evaluate "a == \"\\r\"" (fun _ => some "\r") = .ok false := by
    decide +kernel
  have readable : (symbols? "a == \"\\r\"".toList).isSome := by
    decide +kernel
  have meant : meaning? "a == \"\\r\"" (fun _ => some "\r") = some true := by
    decide +kernel
  cases (every _ _ _ evaluated readable).symm.trans meant

end Condition

end Phrasebook
