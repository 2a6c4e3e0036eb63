/-
This file states the grammar of the conditions that can be evaluated. The main statements are that
a condition is read exactly as the grammar has it, and where a part of the grammar begins a text.
-/

import Phrasebook.Proofs.Preview.Splitting

namespace Phrasebook.Condition

open Text Expression

/-- The text of a comparison: two operands with blanks around them and an operator between. -/
def Compares (text : List Char) (comparison : Comparison) : Prop :=
  ∃ left right, Surrounds left comparison.left ∧ Surrounds right comparison.right ∧
    text = left ++ (if comparison.equal then ['=', '='] else ['!', '=']) ++ right

/-- The text of a condition: alternatives joined by `||`, each of comparisons joined by `&&`. -/
def Writes : List Char → Formula → Prop :=
  Joined '|' (Joined '&' Compares)

theorem Unescapes.literal_eq {inner read : List Char} (unescapes : Unescapes inner read)
    (reversed rest : List Char) :
    literal? reversed (inner ++ '"' :: rest) =
      some (String.ofList (reversed.reverse ++ read), rest) := by
  induction unescapes using Unescapes.byCharacter generalizing reversed with
  | nil => rw [List.nil_append, literal?, List.append_nil]
  | @plain character inner read noQuote noBackslash _ inductionHypothesis =>
      have alone : ∀ escaped behind, character = '\\' →
          inner ++ '"' :: rest = escaped :: behind → False :=
        fun _ _ isBackslash _ => noBackslash isBackslash
      rw [List.cons_append, literal?.eq_4 _ _ _ noQuote alone, if_neg (by simpa using noBackslash),
        inductionHypothesis]
      simp
  | @escape character inner read noFeed _ inductionHypothesis =>
      rw [List.cons_append, List.cons_append, literal?, if_neg (by simpa using noFeed),
        inductionHypothesis]
      simp

/-- No operand begins with a blank. -/
theorem Spells.trimStart_append {spelled : List Char} {operand : Operand}
    (spells : Spells spelled operand) (rest : List Char) :
    trimStart (spelled ++ rest) = spelled ++ rest := by
  cases spells with
  | literal => rfl
  | parameter named =>
      cases named with
      | @name first more starts _ =>
          have continues : continuesName first := continuesName_iff.mpr (.inl starts)
          have solid : ¬isBlank first = true := by
            intro blank
            rw [not_continuesName_of_isBlank blank] at continues
            cases continues
          exact List.dropWhile_cons_of_neg solid

/-- An operand is read up to a character that no name has. -/
theorem Spells.operand_eq {spelled rest : List Char} {operand : Operand}
    (spells : Spells spelled operand)
    (ends : ∀ character ∈ rest.head?, continuesName character = false) :
    operand? (spelled ++ rest) = some (operand, rest) := by
  cases spells with
  | @literal inner read unescapes =>
      have isLiteral := unescapes.literal_eq [] rest
      rw [List.reverse_nil, List.nil_append] at isLiteral
      rw [List.append_assoc, List.cons_append, operand?, List.singleton_append, isLiteral]
      rfl
  | parameter formed =>
      have named := isName_iff.mpr formed
      have taken := Lists.takeWhile_append_of_ends (all_continuesName_of_isName named) ends
      have noQuote : ∀ behind, spelled ++ rest = '"' :: behind → False := by
        intro behind same
        cases spelled with
        | nil => cases named
        | cons first more =>
            cases same
            cases named
      rw [operand?.eq_2 _ noQuote, taken, if_pos named, List.drop_left]

/-- An operand is read with the blanks before it, and those behind it are left. -/
theorem Surrounds.operand_eq {text rest : List Char} {operand : Operand}
    (surrounds : Surrounds text operand)
    (ends : ∀ character ∈ rest.head?, continuesName character = false) :
    ∃ blanks, operand? (trimStart (text ++ rest)) = some (operand, blanks ++ rest) ∧
      blanks.all isBlank := by
  obtain ⟨before, spelled, after, rfl, gapBefore, spells, gapAfter⟩ := surrounds
  have blankBefore := isGap_iff.mp gapBefore
  have blankAfter := isGap_iff.mp gapAfter
  refine ⟨after, ?_, blankAfter⟩
  have endsBehind : ∀ character ∈ (after ++ rest).head?, continuesName character = false := by
    cases after with
    | nil => exact ends
    | cons first more =>
        rw [List.all_cons, Bool.and_eq_true] at blankAfter
        rintro character ⟨⟩
        exact not_continuesName_of_isBlank blankAfter.1
  rw [List.append_assoc, List.append_assoc, trimStart_append blankBefore,
    spells.trimStart_append, spells.operand_eq endsBehind]

/-- A comparison is read exactly where the grammar has one. -/
theorem comparison_eq_some_iff {text : List Char} {comparison : Comparison} :
    comparison? text = some comparison ↔ Compares text comparison := by
  refine ⟨comparison_eq_some, ?_⟩
  rintro ⟨left, right, isLeft, isRight, rfl⟩
  have operator (rest : List Char) :
      operator? (trimStart ((if comparison.equal then ['=', '='] else ['!', '=']) ++ rest)) =
        some (comparison.equal, rest) := by
    cases comparison.equal <;> rfl
  have ends (rest : List Char) :
      ∀ character ∈ ((if comparison.equal then ['=', '='] else ['!', '=']) ++ rest).head?,
        continuesName character = false := by
    cases comparison.equal <;> rintro character ⟨⟩ <;> decide
  have noRest : ∀ character ∈ ([] : List Char).head?, continuesName character = false := by
    rintro character ⟨⟩
  obtain ⟨blanks, isLeftRead, blankLeft⟩ := isLeft.operand_eq (ends right)
  obtain ⟨others, isRightRead, blankRight⟩ := isRight.operand_eq noRest
  rw [List.append_nil, List.append_nil] at isRightRead
  have isOperator := (congrArg operator? (trimStart_append blankLeft _)).trans (operator right)
  have isEnd : (trimStart others).isEmpty := by
    rw [List.isEmpty_iff, trimStart_eq_nil_iff]
    exact blankRight
  rw [comparison?, List.append_assoc]
  refine Option.bind_eq_some_iff.mpr ⟨_, isLeftRead, ?_⟩
  refine Option.bind_eq_some_iff.mpr ⟨_, isOperator, ?_⟩
  refine Option.bind_eq_some_iff.mpr ⟨_, isRightRead, ?_⟩
  exact if_pos isEnd

/-- The marks that stand doubled between comparisons. -/
def connectives : List Char :=
  ['&', '|']

theorem mem_connectives {mark : Char} : mark ∈ connectives ↔ mark = '&' ∨ mark = '|' := by
  rw [connectives, List.mem_pair]

theorem Unescapes.exposed_eq {inner read : List Char} (unescapes : Unescapes inner read) :
    exposed .inside inner = [] := by
  have hidden : LiteralState.inside ≠ .outside := by decide
  induction unescapes using Unescapes.byCharacter with
  | nil => rfl
  | @plain character inner read noQuote noBackslash _ inductionHypothesis =>
      have stays : LiteralState.inside.next character = .inside := by
        simp [LiteralState.next, noQuote, noBackslash]
      rw [exposed_cons_hidden hidden, stays, inductionHypothesis]
  | escape _ _ inductionHypothesis => exact inductionHypothesis

/-- Only the literals of an operand hold connectives. -/
theorem Spells.guarded {spelled : List Char} {operand : Operand} (spells : Spells spelled operand)
    {mark : Char} (isMark : mark ∈ connectives) : Guarded mark spelled := by
  have stops : continuesName mark = false ∧ mark ≠ '"' := by
    obtain rfl | rfl := mem_connectives.mp isMark <;> decide
  refine ⟨spells.foldl_next, ?_⟩
  cases spells with
  | parameter named =>
      have all := all_continuesName_of_isName (isName_iff.mpr named)
      rw [exposed_of_noQuote (not_mem_of_all (by decide) all)]
      exact not_mem_of_all stops.1 all
  | @literal inner read unescapes =>
      have isExposed : exposed .outside ('"' :: inner ++ ['"']) = ['"'] := by
        change '"' :: exposed .inside (inner ++ ['"']) = _
        rw [exposed_append, unescapes.exposed_eq, unescapes.foldl_next]
        rfl
      rw [isExposed, List.mem_singleton]
      exact stops.2

theorem Surrounds.guarded {text : List Char} {operand : Operand}
    (surrounds : Surrounds text operand) {mark : Char} (isMark : mark ∈ connectives) :
    Guarded mark text := by
  have solid : isBlank mark = false := by
    obtain rfl | rfl := mem_connectives.mp isMark <;> decide
  have blank {blanks : List Char} (gap : IsGap blanks) : Guarded mark blanks :=
    guarded_of_noQuote (gap.not_mem (by decide)) (gap.not_mem solid)
  obtain ⟨before, spelled, after, rfl, gapBefore, spells, gapAfter⟩ := surrounds
  exact ((blank gapBefore).append (spells.guarded isMark)).append (blank gapAfter)

theorem Compares.guarded {text : List Char} {comparison : Comparison}
    (compares : Compares text comparison) {mark : Char} (isMark : mark ∈ connectives) :
    Guarded mark text := by
  have operator : Guarded mark (if comparison.equal then ['=', '='] else ['!', '=']) := by
    apply guarded_of_noQuote
    · cases comparison.equal <;> decide
    · obtain rfl | rfl := mem_connectives.mp isMark <;> cases comparison.equal <;> decide
  obtain ⟨left, right, isLeft, isRight, rfl⟩ := compares
  exact ((isLeft.guarded isMark).append operator).append (isRight.guarded isMark)

/-- Comparisons joined by `&&` are no alternatives. -/
theorem guarded_clause {text : List Char} {clause : List Comparison}
    (joined : Joined '&' Compares text clause) : Guarded '|' text :=
  joined.guarded (fun _ _ compares => Compares.guarded compares (by decide)) (by decide) (by decide)

theorem joined_clause_iff {text : List Char} {clause : List Comparison} :
    Joined '&' Compares text clause ↔
      List.Forall₂ Compares (splitOutside '&' .outside [] text) clause :=
  Joined.forall₂_iff fun _ _ compares => Compares.guarded compares (by decide)

theorem writes_iff {text : List Char} {formula : Formula} :
    Writes text formula ↔ List.Forall₂ (List.Forall₂ Compares)
      ((splitOutside '|' .outside [] text).map (splitOutside '&' .outside [])) formula := by
  rw [Writes, Joined.forall₂_iff fun _ _ joined => guarded_clause joined,
    List.forall₂_map_left_iff]
  constructor
  · intro joined
    exact joined.imp fun _ _ isClause => joined_clause_iff.mp isClause
  · intro related
    exact related.imp fun _ _ isClause => joined_clause_iff.mpr isClause

/-- The evaluation reads the conditions of the grammar, as the grammar has them. -/
theorem reads_iff_writes {condition : String} {formula : Formula} :
    Reads condition formula ↔ Writes condition.toList formula := by
  rw [Reads, writes_iff]
  simp only [comparison_eq_some_iff]
  rfl

/-- The formula of a condition of the grammar. -/
def read? (text : List Char) : Option Formula :=
  ((splitOutside '|' .outside [] text).map (splitOutside '&' .outside [])).mapM
    fun alternative => alternative.mapM comparison?

theorem read_eq_some_iff {text : List Char} {formula : Formula} :
    read? text = some formula ↔ Writes text formula := by
  simp only [read?, writes_iff, Outcome.mapM_eq_some_iff, comparison_eq_some_iff]

instance (text : List Char) (formula : Formula) : Decidable (Writes text formula) :=
  decidable_of_iff _ read_eq_some_iff

instance (text : List Char) : Decidable (∃ formula, Writes text formula) :=
  decidable_of_iff ((read? text).isSome = true) (by
    simp only [Option.isSome_iff_exists, read_eq_some_iff])

/-- The texts of the comparisons of a condition, one after the other. -/
def pieces (text : List Char) : List (List Char) :=
  ((splitOutside '|' .outside [] text).map (splitOutside '&' .outside [])).flatten

theorem Writes.pieces {text : List Char} {formula : Formula} (writes : Writes text formula) :
    List.Forall₂ Compares (pieces text) formula.flatten :=
  List.rel_flatten (writes_iff.mp writes)

theorem Compares.unique {text : List Char} {first second : Comparison}
    (isFirst : Compares text first) (isSecond : Compares text second) : first = second := by
  rw [← comparison_eq_some_iff] at isFirst isSecond
  exact Option.some.inj (isFirst.symm.trans isSecond)

/-- A condition is written in one way. -/
theorem Writes.unique {text : List Char} {formula other : Formula} (first : Writes text formula)
    (second : Writes text other) : formula = other := by
  have unique : Relator.RightUnique Compares := fun _ _ _ => Compares.unique
  exact unique.forall₂.forall₂ (writes_iff.mp first) (writes_iff.mp second)

section

variable {text front rest : List Char} {formula : Formula} {mark : Char}

theorem pieces_of_guarded (guarded : Guarded '|' text) :
    pieces text = splitOutside '&' .outside [] text := by
  rw [pieces, guarded.splitOutside_eq]
  exact List.append_nil _

theorem pieces_append_of_guarded (guarded : Guarded '|' text) (rest : List Char) :
    pieces (text ++ '|' :: '|' :: rest) = splitOutside '&' .outside [] text ++ pieces rest := by
  rw [pieces, guarded.splitOutside_append]
  rfl

/-- Behind the comparisons of an alternative and `&&` the same alternative goes on. -/
theorem pieces_append_of_joined {clause : List Comparison}
    (joined : Joined '&' Compares text clause) (rest : List Char) :
    pieces (text ++ '&' :: '&' :: rest) = splitOutside '&' .outside [] text ++ pieces rest := by
  have guarded : Guarded '|' (text ++ ['&', '&']) :=
    (guarded_clause joined).append (guarded_of_noQuote (by decide) (by decide))
  obtain ⟨first, others, isSplit⟩ :=
    List.exists_cons_of_ne_nil (splitOutside_ne_nil '|' .outside [] rest)
  have isFirst := joined.splitOutside_append
    (fun _ _ compares => Compares.guarded compares (by decide)) first
  have isText : text ++ '&' :: '&' :: rest = text ++ ['&', '&'] ++ rest := by simp
  rw [isText, pieces, pieces, guarded.splitOutside_modifyHead, isSplit]
  simp [isFirst]

/-- Behind a part of the grammar and a doubled connective the comparisons go on. -/
theorem Writes.pieces_append (writes : Writes front formula) (isMark : mark ∈ connectives)
    (rest : List Char) :
    Condition.pieces (front ++ mark :: mark :: rest) =
      Condition.pieces front ++ Condition.pieces rest := by
  unfold Writes at writes
  -- only the last alternative stands before the mark
  induction writes with
  | single joined =>
      have guarded := guarded_clause joined
      obtain rfl | rfl := mem_connectives.mp isMark
      · rw [pieces_append_of_joined joined, pieces_of_guarded guarded]
      · rw [pieces_append_of_guarded guarded, pieces_of_guarded guarded]
  | @more text further clause clauses joined _ inductionHypothesis =>
      have guarded := guarded_clause joined
      rw [List.append_assoc, List.cons_append, List.cons_append, pieces_append_of_guarded guarded,
        pieces_append_of_guarded guarded, inductionHypothesis, List.append_assoc]

/-- A comparison before a condition joins its first alternative or makes a new one. -/
theorem Compares.exists_writes {comparison : Comparison} (compares : Compares text comparison)
    (isMark : mark ∈ connectives) (writes : Writes rest formula) :
    ∃ joined : Formula, Writes (text ++ mark :: mark :: rest) joined ∧
      joined.flatten = comparison :: formula.flatten := by
  obtain rfl | rfl := mem_connectives.mp isMark
  · cases writes with
    | @single _ clause isClause =>
        exact ⟨[comparison :: clause], .single (.more compares isClause), rfl⟩
    | @more first further clause clauses isClause others =>
        refine ⟨(comparison :: clause) :: clauses, ?_, rfl⟩
        have written : Joined '|' (Joined '&' Compares) _ _ :=
          .more (.more compares isClause) others
        rwa [List.append_assoc] at written
  · exact ⟨[comparison] :: formula, .more (.single compares) writes, rfl⟩

end

/-- A part of the grammar stands at the beginning of a text, before a doubled connective. -/
def Begins (text : List Char) (formula : Formula) : Prop :=
  ∃ front mark rest, text = front ++ mark :: mark :: rest ∧ mark ∈ connectives ∧
    Writes front formula

/-- A first comparison with others behind it is followed by a doubled connective. -/
theorem exists_rest_of_pieces {text first second : List Char} {others : List (List Char)}
    {comparison : Comparison} (isPieces : pieces text = first :: second :: others)
    (compares : Compares first comparison) :
    ∃ mark rest, mark ∈ connectives ∧ text = first ++ mark :: mark :: rest ∧
      pieces rest = second :: others := by
  have written : Writes first [[comparison]] := .single (.single compares)
  have alone : pieces first = [first] := by
    rw [pieces_of_guarded (compares.guarded (by decide)),
      (compares.guarded (by decide)).splitOutside_eq]
  -- the rest is known, so its comparisons are what is left of those of the text
  have left {mark : Char} {rest : List Char} (isMark : mark ∈ connectives)
      (isText : text = first ++ mark :: mark :: rest) : pieces rest = second :: others := by
    rw [isText, written.pieces_append isMark, alone] at isPieces
    exact (List.cons.inj isPieces).2
  obtain ⟨alternative, alternatives, isSplit⟩ :=
    List.exists_cons_of_ne_nil (splitOutside_ne_nil '|' .outside [] text)
  obtain ⟨piece, more, isClause⟩ :=
    List.exists_cons_of_ne_nil (splitOutside_ne_nil '&' .outside [] alternative)
  have isText := intercalate_splitOutside '|' .outside [] text
  have isAlternative := intercalate_splitOutside '&' .outside [] alternative
  rw [isSplit, Lists.intercalate_cons, List.reverse_nil, List.nil_append] at isText
  rw [isClause, Lists.intercalate_cons, List.reverse_nil, List.nil_append] at isAlternative
  have both := isPieces
  rw [pieces, isSplit, List.map_cons, List.flatten_cons, isClause, List.cons_append] at both
  obtain ⟨rfl, remaining⟩ := List.cons.inj both
  cases more with
  | cons next further =>
      have whole : text = piece ++ '&' :: '&' :: (next ++
          further.flatMap (['&', '&'] ++ ·) ++ alternatives.flatMap (['|', '|'] ++ ·)) := by
        rw [← isText, ← isAlternative]
        simp
      exact ⟨'&', _, by decide, whole, left (by decide) whole⟩
  | nil =>
      cases alternatives with
      | nil => cases remaining
      | cons next further =>
          have whole : text = piece ++ '|' :: '|' :: (next ++
              further.flatMap (['|', '|'] ++ ·)) := by
            rw [← isText, ← isAlternative]
            simp
          exact ⟨'|', _, by decide, whole, left (by decide) whole⟩

/-- Comparisons with others behind them are a part of the grammar that begins the text. -/
theorem begins_of_pieces {text : List Char} {before : List (List Char)} {piece : List Char}
    {after : List (List Char)} {comparisons : List Comparison}
    (isPieces : pieces text = before ++ piece :: after) (inhabited : before ≠ [])
    (compares : List.Forall₂ Compares before comparisons) :
    ∃ formula, Begins text formula ∧ formula.flatten = comparisons := by
  induction compares generalizing text with
  | nil => exact absurd rfl inhabited
  | @cons first comparison others comparisons isFirst further inductionHypothesis =>
      cases further with
      | nil =>
          obtain ⟨mark, rest, isMark, isText, _⟩ := exists_rest_of_pieces isPieces isFirst
          have written : Writes first [[comparison]] := .single (.single isFirst)
          exact ⟨[[comparison]], ⟨first, mark, rest, isText, isMark, written⟩, rfl⟩
      | cons isSecond more =>
          obtain ⟨mark, rest, isMark, isText, isRest⟩ := exists_rest_of_pieces isPieces isFirst
          obtain ⟨formula, ⟨front, next, behind, rfl, isNext, writes⟩, same⟩ :=
            inductionHypothesis isRest (List.cons_ne_nil _ _)
          obtain ⟨joined, written, isJoined⟩ := isFirst.exists_writes isMark writes
          refine ⟨joined, ⟨_, next, behind, ?_, isNext, written⟩, ?_⟩
          · rw [isText]
            simp
          · rw [isJoined, same]

end Phrasebook.Condition
