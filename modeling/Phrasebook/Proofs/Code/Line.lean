/-
This file lists the lines of the accessors by their tokens. Conditions are left out, since they are
copied from the catalog.
-/

import Phrasebook.Proofs.Code.Enumeration

namespace Phrasebook.Code

open Text

/-- Whether a line starts with the pattern of an arm. -/
def startsArm (head : String) : Bool :=
  ((tokens? head).bind pattern?).isSome

mutual

/-- The lines of a node. Inside of an arm the heads of blocks are conditions, which are left
out. -/
def Node.code (inArm : Bool) : Node → List String
  | .line text => [text]
  | .block head body =>
      (if inArm then [] else [head]) ++ codeOf (inArm || startsArm head) body

def codeOf (inArm : Bool) : List Node → List String
  | [] => []
  | node :: rest => node.code inArm ++ codeOf inArm rest

end

theorem codeOf_append (inArm : Bool) (first second : List Node) :
    codeOf inArm (first ++ second) = codeOf inArm first ++ codeOf inArm second := by
  induction first with
  | nil => rfl
  | cons node rest inductionHypothesis =>
      rw [List.cons_append, codeOf, codeOf, inductionHypothesis, List.append_assoc]

mutual

/-- Leaving out conditions adds no lines. -/
theorem Node.code_subset (inArm : Bool) (node : Node) : node.code true ⊆ node.code inArm := by
  cases node with
  | line text => exact List.Subset.refl _
  | block head body =>
      exact List.subset_append_of_subset_right _ (codeOf_subset (inArm || startsArm head) body)

theorem codeOf_subset (inArm : Bool) (nodes : List Node) :
    codeOf true nodes ⊆ codeOf inArm nodes := by
  cases nodes with
  | nil => exact List.Subset.refl _
  | cons node rest =>
      exact List.append_subset.mpr
        ⟨List.subset_append_of_subset_left _ (Node.code_subset inArm node),
          List.subset_append_of_subset_right _ (codeOf_subset inArm rest)⟩

end

/-- What holds of all lines of some nodes. -/
def Everywhere (holds : String → Prop) (inArm : Bool) (nodes : List Node) : Prop :=
  ∀ line ∈ codeOf inArm nodes, holds line

/-- A line that is no comment can be read, and its tokens are as told. -/
def HasTokens (holds : List Token → Prop) (line : String) : Prop :=
  ['/', '/'].isPrefixOf line.toList ∨ ∃ tokens, tokens? line = some tokens ∧ holds tokens

theorem HasTokens.mono {first second : List Token → Prop}
    (weaker : ∀ tokens, first tokens → second tokens) {line : String}
    (has : HasTokens first line) : HasTokens second line :=
  has.imp_right fun ⟨tokens, isLine, holds⟩ => ⟨tokens, isLine, weaker tokens holds⟩

namespace Everywhere

variable {holds : String → Prop} {inArm : Bool}

theorem mono {other : String → Prop} {nodes : List Node} (weaker : ∀ line, holds line → other line)
    (each : Everywhere holds inArm nodes) : Everywhere other inArm nodes :=
  fun line member => weaker line (each line member)

theorem nil : Everywhere holds inArm [] :=
  List.forall_mem_nil _

theorem append {first second : List Node} (isFirst : Everywhere holds inArm first)
    (isSecond : Everywhere holds inArm second) : Everywhere holds inArm (first ++ second) := by
  rw [Everywhere, codeOf_append]
  exact List.forall_mem_append.mpr ⟨isFirst, isSecond⟩

theorem flatMap {A : Type} {list : List A} {nodes : A → List Node}
    (each : ∀ item ∈ list, Everywhere holds inArm (nodes item)) :
    Everywhere holds inArm (list.flatMap nodes) := by
  induction list with
  | nil => exact nil
  | cons item rest inductionHypothesis =>
      obtain ⟨first, further⟩ := List.forall_mem_cons.mp each
      rw [List.flatMap_cons]
      exact first.append (inductionHypothesis further)

theorem line {text : String} (isLine : holds text) : Everywhere holds inArm [.line text] :=
  List.forall_mem_singleton.mpr isLine

theorem map {A : Type} {list : List A} {node : A → Node}
    (each : ∀ item ∈ list, Everywhere holds inArm [node item]) :
    Everywhere holds inArm (list.map node) := by
  rw [List.map_eq_flatMap]
  exact flatMap each

/-- Where something holds of all lines inside of a block, those that are left out do not matter. -/
theorem block {head : String} {body : List Node} (isHead : holds head)
    (isBody : Everywhere holds false body) : Everywhere holds false [.block head body] := by
  -- a head that happens to start an arm only leaves lines out
  have inside : Everywhere holds (startsArm head) body := by
    cases startsArm head with
    | false => exact isBody
    | true => exact fun line member => isBody line (codeOf_subset false body member)
  have lines : codeOf false [.block head body] = head :: codeOf (startsArm head) body := by
    simp [codeOf, Node.code]
  rw [Everywhere, lines]
  exact List.forall_mem_cons.mpr ⟨isHead, inside⟩

theorem arm {head : String} {body : List Node} (isHead : holds head) (isArm : startsArm head)
    (isBody : Everywhere holds true body) : Everywhere holds false [.block head body] := by
  have lines : codeOf false [.block head body] = head :: codeOf true body := by
    simp [codeOf, Node.code, isArm]
  rw [Everywhere, lines]
  exact List.forall_mem_cons.mpr ⟨isHead, isBody⟩

/-- The head of a condition does not matter. -/
theorem condition {head : String} {body : List Node} (isBody : Everywhere holds true body) :
    Everywhere holds true [.block head body] := by
  have lines : codeOf true [.block head body] = codeOf true body := by
    simp [codeOf, Node.code]
  rw [Everywhere, lines]
  exact isBody

/-- Of tests all lines count, but inside of an arm only the results. -/
theorem chain {tests : List (String × String)} {otherwise : String}
    (heads : inArm = false → ∀ test ∈ tests, holds (opening ("if " ++ test.1)) ∧
      holds (opening ("\x7d else if " ++ test.1)))
    (closing : inArm = false → holds (opening "\x7d else"))
    (results : ∀ test ∈ tests, holds test.2) (last : holds otherwise) :
    Everywhere holds inArm (chainNodes tests otherwise) := by
  have branch {head result : String} (isHead : inArm = false → holds head)
      (isResult : holds result) : Everywhere holds inArm [.block head [.line result]] := by
    cases inArm with
    | false => exact block (isHead rfl) (line isResult)
    | true => exact condition (line isResult)
  have further : ∀ test ∈ tests, Everywhere holds inArm
      [.block (opening ("\x7d else if " ++ test.1)) [.line test.2]] :=
    fun test member => branch (fun outside => (heads outside test member).2) (results test member)
  cases tests with
  | nil => exact line last
  | cons test rest =>
      obtain ⟨_, others⟩ := List.forall_mem_cons.mp further
      have isFirst := branch (fun outside => (heads outside test List.mem_cons_self).1)
        (results test List.mem_cons_self)
      have isRest : Everywhere holds inArm (furtherNodes rest otherwise) := by
        rw [furtherNodes]
        exact (map others).append (branch closing last)
      exact isFirst.append isRest

end Everywhere

/-- The tokens of the lines that implement the enum of a catalog. -/
inductive ItemLine (catalog : Catalog) : List Token → Prop
  | blank : ItemLine catalog []
  | constant (source : String) : ItemLine catalog
      [.word "pub", .word "const", .word "SOURCE", .mark ':', .mark '&', .mark '\'',
        .word "static", .word "str", .mark '=', .literal source, .mark ';']
  | systemHead : ItemLine catalog
      [.word "pub", .word "fn", .word "string", .mark '(', .mark '&', .word "self", .mark ')',
        .mark '-', .mark '>', .word "String", .mark '\x7b']
  | systemCall : ItemLine catalog
      [.word "self", .mark '.', .word "string_for", .mark '(', .word "Self", .mark ':', .mark ':',
        .word "system_language", .mark '(', .mark ')', .mark ')']
  | localeHead : ItemLine catalog
      [.word "pub", .word "fn", .word "string_for", .mark '(', .mark '&', .word "self", .mark ',',
        .word "locale", .mark ':', .mark '&', .word "str", .mark ')', .mark '-', .mark '>',
        .word "String", .mark '\x7b']
  | firstTest (language : String) : ItemLine catalog
      [.word "if", .word "locale", .mark '.', .word "starts_with", .mark '(', .literal language,
        .mark ')', .mark '\x7b']
  | furtherTest (language : String) : ItemLine catalog
      [.mark '\x7d', .word "else", .word "if", .word "locale", .mark '.', .word "starts_with",
        .mark '(', .literal language, .mark ')', .mark '\x7b']
  | otherwise : ItemLine catalog [.mark '\x7d', .word "else", .mark '\x7b']
  | call {language : String} (known : language ∈ catalog.languages) : ItemLine catalog
      [.word "self", .mark '.', .word (Language.methodName language), .mark '(', .mark ')']
  | languageHead {language : String} (known : language ∈ catalog.languages) : ItemLine catalog
      [.word "pub", .word "fn", .word (Language.methodName language), .mark '(', .mark '&',
        .word "self", .mark ')', .mark '-', .mark '>', .word "String", .mark '\x7b']
  | noEntry : ItemLine catalog
      [.word "match", .mark '*', .word "self", .mark '\x7b', .mark '\x7d']
  | entries : ItemLine catalog [.word "match", .word "self", .mark '\x7b']
  | armLine {entry : Entry} (member : entry ∈ catalog.entries) (template : Template) :
      ItemLine catalog (patternTokens entry ++ [.mark '=', .mark '>'] ++
        (expressionTokens template ++ [.mark ',']))
  | armHead {entry : Entry} (member : entry ∈ catalog.entries) :
      ItemLine catalog (patternTokens entry ++ [.mark '=', .mark '>'] ++ [.mark '\x7b'])
  | expression (template : Template) : ItemLine catalog (expressionTokens template)
  | systemLanguage {line : String} {tokens : List Token}
      (member : line ∈ codeOf false systemLanguageNodes) (isLine : tokens? line = some tokens) :
      ItemLine catalog tokens

/-- The implementation of the enum of a catalog. -/
def Implements (catalog : Catalog) (nodes : List Node) : Prop :=
  Everywhere (HasTokens (ItemLine catalog)) false nodes

section

variable {catalog : Catalog}

theorem HasTokens.comment {holds : List Token → Prop} {text : String}
    (isComment : ['/', '/'].isPrefixOf text.toList) : HasTokens holds text :=
  .inl isComment

theorem HasTokens.of_tokens {holds : List Token → Prop} {text : String} {tokens : List Token}
    (isLine : tokens? text = some tokens) (isKind : holds tokens) : HasTokens holds text :=
  .inr ⟨tokens, isLine, isKind⟩

theorem implements_blank : Implements catalog [.line ""] :=
  Everywhere.line (.of_tokens rfl .blank)

theorem implements_sourceNodes (source : String) : Implements catalog (sourceNodes source) := by
  have title : Implements catalog [.line "/// Catalog this code was generated from."] :=
    Everywhere.line (.comment (by decide))
  have constant : Implements catalog
      [.line ("pub const SOURCE: &'static str = " ++ quote source ++ ";")] :=
    Everywhere.line (.of_tokens (tokens_sourceConstant source) (.constant source))
  exact title.append (constant.append implements_blank)

theorem implements_systemAccessorNodes : Implements catalog systemAccessorNodes := by
  have isHead : tokens? (opening "pub fn string(&self) -> String") =
      some [.word "pub", .word "fn", .word "string", .mark '(', .mark '&', .word "self",
        .mark ')', .mark '-', .mark '>', .word "String", .mark '\x7b'] := by decide +kernel
  have isCall : tokens? "self.string_for(Self::system_language())" =
      some [.word "self", .mark '.', .word "string_for", .mark '(', .word "Self", .mark ':',
        .mark ':', .word "system_language", .mark '(', .mark ')', .mark ')'] := by
    decide +kernel
  have title : Implements catalog [.line "/// Translation for the system language."] :=
    Everywhere.line (.comment (by decide))
  have call : Implements catalog [.line "self.string_for(Self::system_language())"] :=
    Everywhere.line (.of_tokens isCall .systemCall)
  exact title.append (Everywhere.block (.of_tokens isHead .systemHead) call)

theorem implements_localeNodes (wellNamed : catalog.WellNamed)
    (known : catalog.defaultLanguage ∈ catalog.languages) :
    Implements catalog (localeNodes catalog) := by
  have call {language : String} (member : language ∈ catalog.languages) :
      HasTokens (ItemLine catalog) (methodCall language) := by
    have isWord := isWord_methodName (Language.isCode_of_check (wellNamed.languages _ member)).1
    exact .of_tokens (tokens_methodCall isWord) (.call member)
  have isHead : tokens? (opening "pub fn string_for(&self, locale: &str) -> String") =
      some [.word "pub", .word "fn", .word "string_for", .mark '(', .mark '&', .word "self",
        .mark ',', .word "locale", .mark ':', .mark '&', .word "str", .mark ')', .mark '-',
        .mark '>', .word "String", .mark '\x7b'] := by decide +kernel
  have isElse : tokens? (opening "\x7d else") =
      some [.mark '\x7d', .word "else", .mark '\x7b'] := by decide +kernel
  have opened : Spells .between " \x7b" [.mark '\x7b'] .between := rfl
  have first : Spells .between "if " [.word "if"] .between := rfl
  have other : Spells .between "\x7d else if " [.mark '\x7d', .word "else", .word "if"]
    .between := rfl
  have tests : ∀ test ∈ localeTests catalog,
      ∃ language ∈ catalog.languages, test =
        ("locale.starts_with(" ++ quote language ++ ")", methodCall language) := by
    intro test member
    obtain ⟨language, isCandidate, rfl⟩ := List.mem_map.mp member
    exact ⟨language, List.mem_of_mem_filter isCandidate, rfl⟩
  refine (Everywhere.line (.comment (by simp))).append
    (Everywhere.block (.of_tokens isHead .localeHead) ?_)
  apply Everywhere.chain
  · intro _ test member
    obtain ⟨language, _, rfl⟩ := tests test member
    constructor
    · exact .of_tokens ((first.append (spells_test language)).append opened).tokens_eq
        (.firstTest language)
    · exact .of_tokens ((other.append (spells_test language)).append opened).tokens_eq
        (.furtherTest language)
  · exact fun _ => .of_tokens isElse .otherwise
  · intro test member
    obtain ⟨language, isKnown, rfl⟩ := tests test member
    exact call isKnown
  · exact call known

/-- The lines of an arm without its conditions. -/
theorem implements_arm {entry : Entry} (wellNamed : entry.WellNamed)
    (member : entry ∈ catalog.entries) (wording : Wording) :
    Implements catalog [armNode entry wording] := by
  have expression (template : Template) :
      HasTokens (ItemLine catalog) (templateExpression template) :=
    .of_tokens (spells_expression template).tokens_eq (.expression template)
  rw [armNode]
  split
  · exact Everywhere.line (.of_tokens (tokens_armLine wellNamed wording.base) (.armLine member _))
  · have isArm : startsArm (opening (pattern entry ++ " =>")) := by
      rw [startsArm, tokens_armHead wellNamed, List.append_assoc, Option.bind_some,
        List.cons_append, pattern_patternTokens]
      rfl
    refine Everywhere.arm (.of_tokens (tokens_armHead wellNamed) (.armHead member)) isArm ?_
    apply Everywhere.chain
    · intro never
      cases never
    · intro never
      cases never
    · intro test isTest
      obtain ⟨conditional, _, rfl⟩ := List.mem_map.mp isTest
      exact expression conditional.template
    · exact expression wording.base

theorem implements_languageNodes (wellNamed : catalog.WellNamed) {language : String}
    (known : language ∈ catalog.languages) :
    Implements catalog (languageNodes catalog language) := by
  have checked := wellNamed.languages language known
  have isHead := tokens_methodHead (isWord_methodName (Language.isCode_of_check checked).1)
  have body : Implements catalog (languageBody catalog language) := by
    rw [languageBody]
    split
    · have isMatch : tokens? "match *self \x7b\x7d" = some [.word "match", .mark '*',
          .word "self", .mark '\x7b', .mark '\x7d'] := by decide +kernel
      exact Everywhere.line (.of_tokens isMatch .noEntry)
    · have isMatch : tokens? (opening "match self") = some [.word "match", .word "self",
          .mark '\x7b'] := by decide +kernel
      refine Everywhere.block (.of_tokens isMatch .entries) ?_
      apply Everywhere.map
      intro item member
      obtain ⟨entry, isEntry, isItem⟩ := List.mem_filterMap.mp member
      obtain ⟨wording, _, rfl⟩ := Option.map_eq_some_iff.mp isItem
      exact implements_arm (wellNamed.entries entry isEntry) isEntry wording
  exact (Everywhere.line (.comment (by simp))).append
    (Everywhere.block (.of_tokens isHead (.languageHead known)) body)

theorem implements_systemLanguageNodes : Implements catalog systemLanguageNodes := by
  have readable : ∀ line ∈ codeOf false systemLanguageNodes, (tokens? line).isSome := by
    decide +kernel
  intro line member
  obtain ⟨tokens, isLine⟩ := Option.isSome_iff_exists.mp (readable line member)
  exact .of_tokens isLine (.systemLanguage member isLine)

/-- The lines that implement the enum. -/
theorem implements_implementationNodes (wellNamed : catalog.WellNamed)
    (known : catalog.defaultLanguage ∈ catalog.languages) (embedded : Option String) :
    Implements catalog (implementationNodes catalog embedded) := by
  have source : Implements catalog ((embedded.map sourceNodes).getD []) := by
    cases embedded with
    | none => exact Everywhere.nil
    | some text => exact implements_sourceNodes text
  have languages : Implements catalog
      (catalog.languages.flatMap fun language => .line "" :: languageNodes catalog language) :=
    Everywhere.flatMap fun language member =>
      implements_blank.append (implements_languageNodes wellNamed member)
  have system := source.append implements_systemAccessorNodes
  have locale := implements_blank.append (implements_localeNodes wellNamed known)
  have last := implements_blank.append (@implements_systemLanguageNodes catalog)
  exact ((system.append locale).append languages).append last

end

end Phrasebook.Code
