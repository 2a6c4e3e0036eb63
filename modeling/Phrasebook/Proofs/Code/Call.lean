/-
This file runs the accessors as far as an entry and a locale decide what they do. The main
statements are that the accessor of locales calls the method of the resolved language, and that
this method gives the text of the wording that its conditions choose.
-/

import Phrasebook.Proofs.Code.Method

namespace Phrasebook.Code

open Text

/-- The method that a line calls on the entry itself. -/
def calledMethod? (line : String) : Option String :=
  match tokens? line with
  | some [.word "self", .mark '.', .word name, .mark '(', .mark ')'] => some name
  | _ => none

/-- Whether a test of the locale holds. -/
def startsWith? (locale test : String) : Option Bool :=
  match tokens? test with
  | some [.word "locale", .mark '.', .word "starts_with", .mark '(', .literal start, .mark ')'] =>
      some (start.toList.isPrefixOf locale.toList)
  | _ => none

/-- The arms of a method that matches the entry. -/
def arms? : List Node → Option (List Arm)
  | [.block "match self \x7b" nodes] => nodes.mapM arm?
  | _ => none

/-- The items of the enum that some lines implement. -/
def items? (names : Names) (lines : List String) : Option (List Node) :=
  (blocks? lines).bind (implementation? names)

/-- The method that the accessor of locales calls for a locale. -/
def methodFor? (names : Names) (lines : List String) (locale : String) : Option String := do
  let items ← items? names lines
  let body ← functionBody? "string_for" items
  let line ← result? (startsWith? locale) body
  calledMethod? line

/-- The text that a method gives for a variant, where the conditions of the catalog hold as told
and the fields of the variant have the given values. -/
def textOf? (names : Names) (lines : List String) (method variant : String)
    (holds : String → Bool) (arguments : Arguments) : Option String := do
  let items ← items? names lines
  let body ← functionBody? method items
  let arms ← arms? body
  let arm ← arms.find? (·.variant == variant)
  arm.text? holds arguments

variable {catalog : Catalog} {names : Names}

theorem tokens_methodCall {language : String} (isWord : IsWord (Language.methodName language)) :
    tokens? (methodCall language) = some [.word "self", .mark '.',
      .word (Language.methodName language), .mark '(', .mark ')'] := by
  have start : Spells .between "self." [.word "self", .mark '.'] .between := rfl
  have named : Spells .between (Language.methodName language ++ "()")
      [.word (Language.methodName language), .mark '(', .mark ')'] .between :=
    Spells.wordThen isWord fun _ => rfl
  rw [methodCall, String.append_assoc]
  exact (start.append named).tokens_eq

theorem calledMethod_methodCall {language : String}
    (isWord : IsWord (Language.methodName language)) :
    calledMethod? (methodCall language) = some (Language.methodName language) := by
  rw [calledMethod?, tokens_methodCall isWord]
  rfl

/-- The tokens of a test of the locale. -/
theorem spells_test (language : String) :
    Spells .between ("locale.starts_with(" ++ quote language ++ ")")
      [.word "locale", .mark '.', .word "starts_with", .mark '(', .literal language, .mark ')']
      .between := by
  have start : Spells .between "locale.starts_with("
      [.word "locale", .mark '.', .word "starts_with", .mark '('] .between := rfl
  have finish : Spells .between ")" [.mark ')'] .between := rfl
  exact (start.append (Spells.quote language)).append finish

theorem startsWith_test (locale language : String) :
    startsWith? locale ("locale.starts_with(" ++ quote language ++ ")") =
      some (language.toList.isPrefixOf locale.toList) := by
  rw [startsWith?, (spells_test language).tokens_eq]
  rfl

/-- The tests of the locale find the language that the catalog resolves. -/
theorem result_localeBody (catalog : Catalog) (locale : String) :
    result? (startsWith? locale) (localeBody catalog) =
      some (methodCall (catalog.resolve locale)) := by
  have known : ∀ test ∈ localeTests catalog,
      startsWith? locale test.1 = some ((startsWith? locale test.1).getD false) := by
    intro test member
    obtain ⟨language, _, rfl⟩ := List.mem_map.mp member
    simp [startsWith_test]
  rw [localeBody, result_chainNodes (fun test => (startsWith? locale test).getD false) known,
    localeTests, candidates, List.find?_map, List.find?_filter]
  simp only [Function.comp_def, startsWith_test, Option.getD_some, Catalog.resolve,
    Language.resolve, Bool.decide_and, Bool.decide_eq_true]
  cases catalog.languages.find? _ with
  | none => rfl
  | some language => rfl

theorem items_accessors (wellNamed : catalog.WellNamed) (embedded : Option String) :
    items? names (accessors catalog names embedded).lines =
      some (implementationNodes catalog embedded) := by
  rw [items?, (nests_accessors wellNamed embedded).blocks_eq, Option.bind_some,
    implementation_accessorNodes]

/-- The accessor of locales calls the method of the resolved language. -/
theorem methodFor_accessors (wellNamed : catalog.WellNamed) (embedded : Option String)
    {locale : String} (known : catalog.resolve locale ∈ catalog.languages) :
    methodFor? names (accessors catalog names embedded).lines locale =
      some (Language.methodName (catalog.resolve locale)) := by
  have isWord := isWord_methodName (Language.isCode_of_check (wellNamed.languages _ known)).1
  simp only [methodFor?, items_accessors wellNamed, functionBody_locale wellNamed,
    result_localeBody, calledMethod_methodCall isWord, Option.bind_eq_bind, Option.bind_some]

theorem mapM_armNode {items : List (Entry × Wording)}
    (named : ∀ item ∈ items, item.1.WellNamed) :
    (items.map fun (entry, wording) => armNode entry wording).mapM arm? =
      some (items.map fun (entry, wording) => armOf entry wording) := by
  induction items with
  | nil => rfl
  | cons item rest inductionHypothesis =>
      obtain ⟨first, further⟩ := List.forall_mem_cons.mp named
      rw [List.map_cons, List.mapM_cons, arm_armNode first, inductionHypothesis further]
      rfl

/-- A method matches one arm for each entry with a wording. -/
theorem arms_languageBody (wellNamed : catalog.WellNamed) {language : String}
    (inhabited : catalog.entries ≠ []) :
    arms? (languageBody catalog language) =
      some ((wordingsIn catalog language).map fun (entry, wording) => armOf entry wording) := by
  have isEmpty : catalog.entries.isEmpty = false := by
    simpa using inhabited
  have named : ∀ item ∈ wordingsIn catalog language, item.1.WellNamed := by
    intro item member
    obtain ⟨entry, isEntry, isItem⟩ := List.mem_filterMap.mp member
    obtain ⟨wording, _, rfl⟩ := Option.map_eq_some_iff.mp isItem
    exact wellNamed.entries entry isEntry
  rw [languageBody, isEmpty]
  exact mapM_armNode named

/-- The variant of an entry finds the arm of the entry. -/
theorem find_armOf (wellNamed : catalog.WellNamed) {language : String} {entry : Entry}
    (member : entry ∈ catalog.entries) {wording : Wording}
    (isWording : entry.wording? language = some wording) :
    ((wordingsIn catalog language).map fun (entry, wording) => armOf entry wording).find?
      (·.variant == entry.variantName) = some (armOf entry wording) := by
  have isItem : (entry, wording) ∈ wordingsIn catalog language := by
    apply List.mem_filterMap.mpr
    exact ⟨entry, member, by rw [isWording]; rfl⟩
  have alone : (wordingsIn catalog language).Pairwise fun first second =>
      ¬(first.1.variantName == entry.variantName ∧
        second.1.variantName == entry.variantName) := by
    rw [wordingsIn, List.pairwise_filterMap]
    apply wellNamed.apart.imp
    intro first second apart firstItem isFirst secondItem isSecond same
    obtain ⟨_, _, rfl⟩ := Option.map_eq_some_iff.mp isFirst
    obtain ⟨_, _, rfl⟩ := Option.map_eq_some_iff.mp isSecond
    obtain ⟨sameFirst, sameSecond⟩ := same
    exact apart.1 ((eq_of_beq sameFirst).trans (eq_of_beq sameSecond).symm)
  have found := Lists.find?_of_pairwise alone isItem (beq_self_eq_true _)
  rw [List.find?_map]
  change ((wordingsIn catalog language).find? fun item =>
    item.1.variantName == entry.variantName).map _ = _
  rw [found]
  rfl

/-- The method of a language gives what the wording of an entry renders. -/
theorem textOf_accessors (wellNamed : catalog.WellNamed) (embedded : Option String)
    {language : String} (known : language ∈ catalog.languages) {entry : Entry}
    (member : entry ∈ catalog.entries) {wording : Wording}
    (isWording : entry.wording? language = some wording) {holds : String → Bool}
    {arguments : Arguments} (declared : (chosen holds wording).placeholders ⊆ entry.parameters)
    (bound : ∀ parameter ∈ entry.parameters, (arguments parameter).isSome) :
    textOf? names (accessors catalog names embedded).lines (Language.methodName language)
      entry.variantName holds arguments = some ((chosen holds wording).render arguments) := by
  have inhabited : catalog.entries ≠ [] := List.ne_nil_of_mem member
  simp only [textOf?, items_accessors wellNamed, functionBody_language wellNamed embedded known,
    arms_languageBody wellNamed inhabited, find_armOf wellNamed member isWording,
    text_armOf (wellNamed.entries _ member) declared bound, Option.bind_eq_bind,
    Option.bind_some]

end Phrasebook.Code
