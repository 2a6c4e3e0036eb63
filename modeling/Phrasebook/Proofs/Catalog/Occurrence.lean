/-
This file lists the names in parentheses of a text from left to right. The main statement is that a
template has the parameters among them as its placeholders, and a strict reading refuses the
others.
-/

import Phrasebook.Proofs.Catalog.Segmentation

namespace Phrasebook.Template

open Text

/-- All names in parentheses of a text with the places where they start, from left to right. None of
them reaches into the next one. -/
structure Occurrences (text : List Char) (found : List (Nat × String)) : Prop where
  mem_iff : ∀ start name, (start, name) ∈ found ↔
    ∃ before, before.length = start ∧ Mentions text before name
  apart : found.Pairwise fun first second => first.1 + first.2.toList.length + 2 ≤ second.1

/-- The names in parentheses of a text that starts at a place. -/
def occurrencesFrom (start : Nat) : List Char → List (Nat × String)
  | [] => []
  | character :: rest =>
      ((mentionAt? character rest).map (start, ·)).toList ++ occurrencesFrom (start + 1) rest

theorem mentionAt_of_ne {character : Char} (other : character ≠ '(') (rest : List Char) :
    mentionAt? character rest = none := by
  simp [mentionAt?, other]

/-- Characters that open no parenthesis can be passed over. -/
theorem mentions_append_iff {front rest before : List Char} {name : String}
    (noOpen : '(' ∉ front) :
    Mentions (front ++ rest) before name ↔
      ∃ later, before = front ++ later ∧ Mentions rest later name := by
  induction front generalizing before with
  | nil => simp
  | cons character front inductionHypothesis =>
      rw [List.mem_cons, not_or] at noOpen
      cases before with
      | nil => simp [mentions_nil_iff, mentionAt_of_ne (Ne.symm noOpen.1)]
      | cons first before =>
          rw [List.cons_append, mentions_cons_iff, inductionHypothesis noOpen.2]
          simp [eq_comm, and_assoc]

theorem references_append {front rest : List Char} (noOpen : '(' ∉ front) :
    references (front ++ rest) = references rest := by
  induction front with
  | nil => rfl
  | cons character front inductionHypothesis =>
      rw [List.mem_cons, not_or] at noOpen
      rw [List.cons_append, references_cons, mentionAt_of_ne (Ne.symm noOpen.1),
        inductionHypothesis noOpen.2]
      rfl

theorem map_occurrencesFrom (start : Nat) (text : List Char) :
    (occurrencesFrom start text).map Prod.snd = references text := by
  induction text generalizing start with
  | nil => rfl
  | cons character rest inductionHypothesis =>
      rw [occurrencesFrom, references_cons, List.map_append, inductionHypothesis]
      cases mentionAt? character rest <;> rfl

theorem mem_occurrencesFrom_iff {start place : Nat} {text : List Char} {name : String} :
    (place, name) ∈ occurrencesFrom start text ↔
      ∃ before, start + before.length = place ∧ Mentions text before name := by
  induction text generalizing start with
  | nil => simp [occurrencesFrom, not_mentions_nil]
  | cons character rest inductionHypothesis =>
      rw [occurrencesFrom, List.mem_append, inductionHypothesis]
      constructor
      · intro either
        obtain here | ⟨before, isPlace, later⟩ := either
        · have isHere : start = place ∧ mentionAt? character rest = some name := by
            simpa [and_comm] using here
          exact ⟨[], isHere.1, mentions_nil_iff.mpr isHere.2⟩
        · exact ⟨character :: before, by simp; omega, mentions_cons_iff.mpr ⟨rfl, later⟩⟩
      · intro mentioned
        obtain ⟨before, isPlace, isMention⟩ := mentioned
        cases before with
        | nil => exact .inl (by simpa [mentions_nil_iff.mp isMention] using isPlace.symm)
        | cons first before =>
            refine .inr ⟨before, ?_, (mentions_cons_iff.mp isMention).2⟩
            rw [List.length_cons] at isPlace
            omega

theorem pairwise_occurrencesFrom (start : Nat) (text : List Char) :
    (occurrencesFrom start text).Pairwise
      fun first second => first.1 + first.2.toList.length + 2 ≤ second.1 := by
  induction text generalizing start with
  | nil => exact .nil
  | cons character rest inductionHypothesis =>
      rw [occurrencesFrom]
      cases isHere : mentionAt? character rest with
      | none => exact inductionHypothesis (start + 1)
      | some name =>
          refine List.pairwise_cons.mpr ⟨?_, inductionHypothesis (start + 1)⟩
          intro second member
          obtain ⟨before, isPlace, later⟩ := mem_occurrencesFrom_iff.mp member
          -- the name and the parenthesis that closes it hold no other name
          obtain ⟨named, after, spelled⟩ := mentions_nil_iff.mpr isHere
          have isRest : rest = (name.toList ++ [')']) ++ after := by
            simpa using (List.cons.inj spelled).2
          have noOpen := not_mem_of_isName named '(' (by decide)
          rw [isRest, mentions_append_iff (by simpa using noOpen)] at later
          obtain ⟨between, rfl, _⟩ := later
          simp only [List.length_append, List.length_singleton] at isPlace
          dsimp only
          omega

theorem occurrences_occurrencesFrom (text : List Char) :
    Occurrences text (occurrencesFrom 0 text) :=
  ⟨fun start name => by simp [mem_occurrencesFrom_iff], pairwise_occurrencesFrom 0 text⟩

/-- The undeclared names of a text are those that it mentions besides the parameters. -/
theorem firstOccurrences_undeclared (parameters : List String) (text : String) :
    Lists.FirstOccurrences (· ∉ parameters) (references text.toList)
      (undeclared parameters text) := by
  refine ⟨?_, Lists.pairwise_eraseDups_filter _ _⟩
  simp [undeclared]

/-- The placeholders of a text are the parameters that it mentions. -/
theorem placeholders_split {parameters : List String}
    (names : ∀ parameter ∈ parameters, isName parameter.toList) (reversed text : List Char) :
    (split parameters reversed text).placeholders =
      (references text).filter (· ∈ parameters) := by
  induction reversed, text using split.induct parameters with
  | case1 reversed => rw [split_nil, placeholders_literal]; rfl
  | case2 reversed character rest isOpen parameter found inductionHypothesis =>
      cases eq_of_beq isOpen
      obtain ⟨isHere, isParameter⟩ := (parameterAt_eq_some_iff names).mp found
      have spelled := (parameterAt_eq_some found).2
      have noOpen := not_mem_of_isName (names parameter isParameter) '(' (by decide)
      have isRest : references rest = references (rest.drop (parameter.toList.length + 1)) := by
        conv_lhs => rw [spelled, ← List.singleton_append, ← List.append_assoc]
        exact references_append (by simpa using noOpen)
      have isMention : mentionAt? '(' rest = some parameter := isHere
      rw [split_found found, placeholders_append, placeholders_literal, references_cons, isMention,
        isRest, Option.toList_some, List.singleton_append,
        List.filter_cons_of_pos (by simpa using isParameter), ← inductionHypothesis]
      rfl
  | case3 reversed character rest isOpen missing inductionHypothesis =>
      cases eq_of_beq isOpen
      rw [split_missing missing, inductionHypothesis, references_cons]
      cases isHere : mentionAt? '(' rest with
      | none => rfl
      | some name =>
          have isNoParameter : name ∉ parameters := by
            intro isParameter
            have found := (parameterAt_eq_some_iff names).mpr ⟨isHere, isParameter⟩
            simp [missing] at found
          simp [isNoParameter]
  | case4 reversed character rest other inductionHypothesis =>
      have differs : character ≠ '(' := by simpa using other
      rw [split_other differs, inductionHypothesis, references_cons, mentionAt_of_ne differs]
      rfl

/-- A strict reading looks for the first name that is no parameter. -/
theorem ofTextStrict_eq (key : String) (parameters : List String) (text : String) :
    ofTextStrict key parameters text =
      match (references text.toList).find? (· ∉ parameters) with
      | some name => .error (.undeclaredParameter key name)
      | none => .ok (ofText parameters text) := by
  have isFirst := head_undeclared parameters text
  simp only [List.contains_eq_mem, ← decide_not] at isFirst
  rw [← isFirst, ofTextStrict]
  cases undeclared parameters text <;> rfl

/-- The placeholders of a template are the parameters among the names in parentheses, and a strict
reading takes the template exactly where there are no others. -/
theorem readings_agree {parameters : List String}
    (names : ∀ parameter ∈ parameters, isName parameter.toList) (text : String) :
    ∃ found, Occurrences text.toList found ∧
      (ofText parameters text).placeholders = (found.map Prod.snd).filter (· ∈ parameters) ∧
      Lists.FirstOccurrences (· ∉ parameters) (found.map Prod.snd) (undeclared parameters text) ∧
      ∀ key,
        (∀ template, ofTextStrict key parameters text = .ok template ↔
          (∀ name ∈ found.map Prod.snd, name ∈ parameters) ∧
            template = ofText parameters text) ∧
        ∀ defect, ofTextStrict key parameters text = .error defect ↔
          ∃ name, (found.map Prod.snd).find? (· ∉ parameters) = some name ∧
            defect = .undeclaredParameter key name := by
  refine ⟨occurrencesFrom 0 text.toList, occurrences_occurrencesFrom _, ?_⟩
  rw [map_occurrencesFrom]
  refine ⟨placeholders_split names [] _, firstOccurrences_undeclared parameters text, ?_⟩
  intro key
  rw [ofTextStrict_eq]
  cases isFirst : (references text.toList).find? (· ∉ parameters) with
  | none =>
      have declared : ∀ name ∈ references text.toList, name ∈ parameters := by
        simpa using isFirst
      simpa [eq_comm] using declared
  | some name =>
      have isMention := List.mem_of_find?_eq_some isFirst
      have isNoParameter : name ∉ parameters := by simpa using List.find?_some isFirst
      have undeclared : ¬∀ name ∈ references text.toList, name ∈ parameters :=
        fun declared => isNoParameter (declared name isMention)
      simp [undeclared, eq_comm]

/-- A parameter is mentioned twice, another one not at all, and two names are no parameters. -/
theorem readings_agree_repeated :
    (∀ parameter ∈ ["a", "c"], isName parameter.toList) ∧
      ∃ found, Occurrences "(a((b)(a)(d)(b)(a".toList found ∧
        (ofText ["a", "c"] "(a((b)(a)(d)(b)(a").placeholders =
          (found.map Prod.snd).filter (· ∈ ["a", "c"]) ∧
        Lists.FirstOccurrences (· ∉ ["a", "c"]) (found.map Prod.snd)
          (undeclared ["a", "c"] "(a((b)(a)(d)(b)(a") ∧
        ofTextStrict "key" ["a", "c"] "(a((b)(a)(d)(b)(a" =
          .error (.undeclaredParameter "key" "b") := by
  have names : ∀ parameter ∈ ["a", "c"], isName parameter.toList := by decide
  obtain ⟨found, occurrences, placeholders, undeclared, _⟩ :=
    readings_agree names "(a((b)(a)(d)(b)(a"
  exact ⟨names, found, occurrences, placeholders, undeclared, by decide +kernel⟩

end Phrasebook.Template
