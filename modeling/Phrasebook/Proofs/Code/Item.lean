/-
This file reads the items that the accessors declare. The main statement is that they have
different names, which the generated language allows.
-/

import Phrasebook.Proofs.Code.Call
import Phrasebook.Proofs.Code.Listing
import Phrasebook.Proofs.Text.Identifier

namespace Phrasebook

open Text

/-- The methods of languages have names that are allowed. -/
theorem Language.isIdentifier_methodName {language : String}
    (checked : Language.check language = .ok ()) : isIdentifier (methodName language) := by
  obtain ⟨isCode, _, noKeyword⟩ := Language.isCode_of_check checked
  obtain ⟨_, continues⟩ := Code.isWord_methodName isCode
  cases isText : language.toList with
  | nil => simp [isText, Language.isCode] at isCode
  | cons first rest =>
      rw [isText, Language.isCode, Bool.and_eq_true] at isCode
      have starts : first.isAlpha := isCode.1
      have noHyphen : (first == '-') = false := by
        rw [beq_eq_false_iff_ne]
        intro same
        rw [same] at starts
        exact absurd starts (by decide)
      obtain ⟨further, isMethod⟩ : ∃ further, (methodName language).toList = first :: further := by
        rw [methodName, String.toList_map, isText, List.map_cons, noHyphen]
        exact ⟨_, rfl⟩
      have named : isName (methodName language).toList := by
        rw [isMethod, List.all_cons, Bool.and_eq_true] at continues
        rw [isMethod, isName, startsName, starts, continues.2]
        rfl
      have notBlank : methodName language ≠ "_" := by
        intro same
        rw [same] at isMethod
        cases isMethod
        exact absurd starts (by decide)
      rw [isIdentifier, named, noKeyword, bne_iff_ne.mpr notBlank]
      rfl

namespace Code

/-- Blank lines and comments declare nothing. -/
def Node.isAside : Node → Bool
  | .line text => text.isEmpty || ['/', '/'].isPrefixOf text.toList
  | .block .. => false

/-- What some nodes declare, where all of them are read. -/
def declared? {A : Type} (read : Node → Option A) (nodes : List Node) : Option (List A) :=
  (nodes.filter fun node => !node.isAside).mapM read

/-- An item of the enum: a method takes the enum itself, a function does not. -/
inductive Item where
  | constant (name : String)
  | method (name : String)
  | function (name : String)
  deriving Repr, DecidableEq

def Item.name : Item → String
  | constant name => name
  | method name => name
  | function name => name

def item? : Node → Option Item
  | .line text =>
      match tokens? text with
      | some (.word "pub" :: .word "const" :: .word name :: .mark ':' :: _) =>
          some (.constant name)
      | _ => none
  | .block head _ =>
      match tokens? head with
      | some (.word "pub" :: .word "fn" :: .word name :: .mark '(' :: .mark '&' ::
          .word "self" :: _) => some (.method name)
      | some (.word "fn" :: .word name :: .mark '(' :: .mark ')' :: _) => some (.function name)
      | _ => none

/-- The items that the accessors are to declare. -/
def itemsOf (catalog : Catalog) (embedded : Option String) : List Item :=
  (if embedded.isSome then [.constant "SOURCE"] else []) ++
    [.method "string", .method "string_for"] ++
    catalog.languages.map (fun language => .method (Language.methodName language)) ++
    [.function "system_language"]

section

variable {A B : Type} {read : Node → Option A}

theorem declared_append {first second : List Node} {found others : List A}
    (isFirst : declared? read first = some found) (isSecond : declared? read second = some others) :
    declared? read (first ++ second) = some (found ++ others) := by
  rw [declared?, Outcome.mapM_eq_some_iff] at isFirst isSecond ⊢
  rw [List.filter_append]
  exact List.rel_append isFirst isSecond

theorem declared_flatMap {items : List B} {nodes : B → List Node} {found : B → List A}
    (each : ∀ item ∈ items, declared? read (nodes item) = some (found item)) :
    declared? read (items.flatMap nodes) = some (items.flatMap found) := by
  induction items with
  | nil => rfl
  | cons item rest inductionHypothesis =>
      obtain ⟨first, further⟩ := List.forall_mem_cons.mp each
      rw [List.flatMap_cons, List.flatMap_cons]
      exact declared_append first (inductionHypothesis further)

theorem declared_aside {node : Node} (isAside : node.isAside) :
    declared? read [node] = some [] := by
  rw [declared?, List.filter_cons_of_neg (by simpa using isAside)]
  rfl

theorem declared_node {node : Node} {found : A} (isDeclaration : node.isAside = false)
    (isFound : read node = some found) : declared? read [node] = some [found] := by
  rw [declared?, List.filter_cons_of_pos (by simpa using isDeclaration)]
  simp [isFound]

end

variable {catalog : Catalog}

theorem tokens_sourceConstant (source : String) :
    tokens? ("pub const SOURCE: &'static str = " ++ quote source ++ ";") =
      some [.word "pub", .word "const", .word "SOURCE", .mark ':', .mark '&', .mark '\'',
        .word "static", .word "str", .mark '=', .literal source, .mark ';'] := by
  have start : Spells .between "pub const SOURCE: &'static str = "
      [.word "pub", .word "const", .word "SOURCE", .mark ':', .mark '&', .mark '\'',
        .word "static", .word "str", .mark '='] .between := rfl
  have finish : Spells .between ";" [.mark ';'] .between := rfl
  exact ((start.append (Spells.quote source)).append finish).tokens_eq

theorem items_sourceNodes (source : String) :
    declared? item? (sourceNodes source) = some [.constant "SOURCE"] := by
  have isConstant : item? (.line ("pub const SOURCE: &'static str = " ++ quote source ++ ";")) =
      some (.constant "SOURCE") := by
    rw [item?, tokens_sourceConstant]
    rfl
  have notAside : (Node.line ("pub const SOURCE: &'static str = " ++ quote source ++ ";")).isAside =
      false := by
    simp [Node.isAside, List.isPrefixOf]
  have title : declared? item? [.line "/// Catalog this code was generated from."] = some [] :=
    declared_aside (by decide)
  have blank : declared? item? [.line ""] = some [] := declared_aside (by decide)
  have constant := declared_node notAside isConstant
  have read := declared_append title (declared_append constant blank)
  exact read

theorem items_languageNodes {language : String}
    (checked : Language.check language = .ok ()) :
    declared? item? (languageNodes catalog language) =
      some [.method (Language.methodName language)] := by
  have isMethod : item? (.block (opening ("pub fn " ++ Language.methodName language ++
      "(&self) -> String")) (languageBody catalog language)) =
        some (.method (Language.methodName language)) := by
    rw [item?, tokens_methodHead (isWord_methodName (Language.isCode_of_check checked).1)]
    rfl
  have title : declared? item? [.line ("/// " ++ backquote language ++ " translation.")] =
      some [] := declared_aside (by simp [Node.isAside])
  exact declared_append title (declared_node rfl isMethod)

/-- The items of the accessors are those of the catalog. -/
theorem items_implementationNodes (wellNamed : catalog.WellNamed) (embedded : Option String) :
    declared? item? (implementationNodes catalog embedded) = some (itemsOf catalog embedded) := by
  have blank : declared? item? [.line ""] = some [] := declared_aside (by decide)
  have source : declared? item? ((embedded.map sourceNodes).getD []) =
      some (if embedded.isSome then [.constant "SOURCE"] else []) := by
    cases embedded with
    | none => rfl
    | some text => exact items_sourceNodes text
  have system : declared? item? systemAccessorNodes = some [.method "string"] := rfl
  have locale : declared? item? (localeNodes catalog) = some [.method "string_for"] := by
    have title : declared? item? [.line
        ("/// Translation for `locale`: the first language that is a prefix of it, else " ++
          backquote catalog.defaultLanguage ++ ".")] = some [] :=
      declared_aside (by simp [Node.isAside])
    exact declared_append title (declared_node rfl rfl)
  have languages : declared? item?
      (catalog.languages.flatMap fun language => .line "" :: languageNodes catalog language) =
        some (catalog.languages.map fun language => .method (Language.methodName language)) := by
    rw [List.map_eq_flatMap]
    apply declared_flatMap
    intro language known
    exact declared_append blank (items_languageNodes (wellNamed.languages language known))
  have last : declared? item? systemLanguageNodes = some [.function "system_language"] := rfl
  have read := declared_append (declared_append (declared_append (declared_append source system)
    (declared_append blank locale)) languages) (declared_append blank last)
  simpa [implementationNodes, itemsOf] using read

/-- The items of the accessors have different names. -/
theorem nodup_items (wellNamed : catalog.WellNamed) (embedded : Option String) :
    ((itemsOf catalog embedded).map Item.name).Nodup := by
  have functions : ((functions (implementationNodes catalog none)).map Prod.fst) =
      (itemsOf catalog none).map Item.name := by
    rw [functions_implementationNodes wellNamed]
    simp [itemsOf, Item.name]
  have distinct := nodup_functions wellNamed none
  rw [functions] at distinct
  cases embedded with
  | none => exact distinct
  | some source =>
      -- the constant is no function, so the methods are compared with its name here
      refine List.nodup_cons.mpr ⟨?_, distinct⟩
      intro member
      have isMethod : "SOURCE" ∈ catalog.languages.map Language.methodName := by
        simpa [itemsOf, Item.name] using member
      obtain ⟨language, known, same⟩ := List.mem_map.mp isMethod
      have free := (Language.isCode_of_check (wellNamed.languages language known)).2.1
      rw [same] at free
      exact absurd free (by decide)

theorem isItemName_itemsOf (wellNamed : catalog.WellNamed) (embedded : Option String) :
    ∀ item ∈ itemsOf catalog embedded, IsItemName item.name := by
  have own : ∀ name ∈ Language.reservedNames, isIdentifier name := by decide +kernel
  have methods : ∀ language ∈ catalog.languages, isIdentifier (Language.methodName language) :=
    fun language known => Language.isIdentifier_methodName (wellNamed.languages language known)
  intro item member
  apply isItemName_of_isIdentifier
  simp only [itemsOf, List.mem_append, List.mem_map, List.mem_cons, List.not_mem_nil,
    or_false] at member
  obtain ((isSource | rfl | rfl) | ⟨language, known, rfl⟩) | rfl := member
  · cases embedded with
    | none => cases isSource
    | some source =>
        rw [List.mem_singleton.mp isSource]
        exact own "SOURCE" (by decide)
  · exact own "string" (by decide)
  · exact own "string_for" (by decide)
  · exact methods language known
  · exact own "system_language" (by decide)

end Code

end Phrasebook
