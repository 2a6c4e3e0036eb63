/-
This file reads the methods of the accessors. The main statement is that every method has a name
of its own and the body that its language calls for.
-/

import Phrasebook.Proofs.Code.Arm

namespace Phrasebook.Code

open Text

/-- The name of the function that a line opens. -/
def functionName? (head : String) : Option String :=
  match tokens? head with
  | some (.word "pub" :: .word "fn" :: .word name :: .mark '(' :: _) => some name
  | some (.word "fn" :: .word name :: .mark '(' :: _) => some name
  | _ => none

def Node.function? : Node → Option (String × List Node)
  | .block head body => (functionName? head).map fun name => (name, body)
  | .line _ => none

/-- The functions among some nodes with their bodies. -/
def functions (nodes : List Node) : List (String × List Node) :=
  nodes.filterMap Node.function?

/-- The body of the only function with the name. -/
def functionBody? (name : String) (nodes : List Node) : Option (List Node) :=
  match (functions nodes).filter (·.1 == name) with
  | [(_, body)] => some body
  | _ => none

def Node.under? (head : String) : Node → Option (List Node)
  | .block found body => if found == head then some body else none
  | .line _ => none

/-- The nodes of the only block that implements the enum. -/
def implementation? (names : Names) (nodes : List Node) : Option (List Node) :=
  match nodes.filterMap (Node.under? ("impl " ++ names.enumName ++ " \x7b")) with
  | [body] => some body
  | _ => none

def variantNode (entry : Entry) : Node :=
  .line (variant entry).text

def enumerationNodes (catalog : Catalog) (names : Names) : List Node :=
  [.line ("/// Localized phrases. Default language: " ++ backquote catalog.defaultLanguage ++ "."),
    .line "#[allow(non_snake_case)]",
    .line "#[derive(Debug, Clone, PartialEq, Eq, Hash)]",
    .block (opening ("pub enum " ++ names.enumName)) (catalog.entries.map variantNode)]

def sourceNodes (source : String) : List Node :=
  [.line "/// Catalog this code was generated from.",
    .line ("pub const SOURCE: &'static str = " ++ quote source ++ ";"),
    .line ""]

def systemAccessorNodes : List Node :=
  [.line "/// Translation for the system language.",
    .block (opening "pub fn string(&self) -> String")
      [.line "self.string_for(Self::system_language())"]]

/-- The tests of a locale with the call for each. -/
def localeTests (catalog : Catalog) : List (String × String) :=
  (candidates catalog).map fun language =>
    ("locale.starts_with(" ++ quote language ++ ")", methodCall language)

def localeBody (catalog : Catalog) : List Node :=
  chainNodes (localeTests catalog) (methodCall catalog.defaultLanguage)

def localeNodes (catalog : Catalog) : List Node :=
  [.line ("/// Translation for `locale`: the first language that is a prefix of it, else " ++
      backquote catalog.defaultLanguage ++ "."),
    .block (opening "pub fn string_for(&self, locale: &str) -> String") (localeBody catalog)]

/-- The entries that have a wording in a language. -/
def wordingsIn (catalog : Catalog) (language : String) : List (Entry × Wording) :=
  catalog.entries.filterMap fun entry => (entry.wording? language).map (entry, ·)

def languageBody (catalog : Catalog) (language : String) : List Node :=
  if catalog.entries.isEmpty then [.line "match *self \x7b\x7d"]
  else
    [.block (opening "match self") ((wordingsIn catalog language).map fun (entry, wording) =>
      armNode entry wording)]

def languageNodes (catalog : Catalog) (language : String) : List Node :=
  [.line ("/// " ++ backquote language ++ " translation."),
    .block (opening ("pub fn " ++ Language.methodName language ++ "(&self) -> String"))
      (languageBody catalog language)]

def systemLanguageBody : List Node :=
  [.line "static LANGUAGE: std::sync::OnceLock<String> = std::sync::OnceLock::new();",
    .block (opening "LANGUAGE.get_or_init(||")
      [.line ("[" ++ commaSeparated (localeVariables.map quote) ++ "]"),
        .line "    .into_iter()",
        .line "    .filter_map(|name| std::env::var(name).ok())",
        .line "    .find(|value| !value.is_empty())",
        .line "    .unwrap_or_default()"]]

def systemLanguageNodes : List Node :=
  [.block (opening "fn system_language() -> &'static str") systemLanguageBody]

/-- The nodes inside the block that implements the enum. -/
def implementationNodes (catalog : Catalog) (embedded : Option String) : List Node :=
  (embedded.map sourceNodes).getD [] ++ systemAccessorNodes ++ .line "" :: localeNodes catalog ++
    (catalog.languages.flatMap fun language => .line "" :: languageNodes catalog language) ++
    .line "" :: systemLanguageNodes

def accessorNodes (catalog : Catalog) (names : Names) (embedded : Option String) : List Node :=
  enumerationNodes catalog names ++
    [.line "", .line "#[allow(non_snake_case, unused_variables)]",
      .block (opening ("impl " ++ names.enumName)) (implementationNodes catalog embedded)]

section

variable {catalog : Catalog} {names : Names}

theorem nests_variant {entry : Entry} (wellNamed : entry.WellNamed) :
    Nests [variant entry] [variantNode entry] := by
  obtain ⟨isWord, _⟩ := isWord_of_isIdentifier wellNamed.variant
  obtain ⟨first, rest, isText, starts, _⟩ := isWord.exists_cons
  have noBrace : (first == '\x7d') = false := by
    rw [beq_eq_false_iff_ne]
    intro same
    rw [same] at starts
    exact absurd starts (by decide)
  rw [variantNode, variant]
  split
  · apply Nests.line
    simp [lineKind, isText, noBrace, List.getLast?_cons, List.getLast?_append]
  · apply Nests.line
    simp [lineKind, isText, noBrace, List.getLast?_cons, List.getLast?_append]

theorem nests_flatMap {A : Type} {items : List A} {layout : A → Layout} {nodes : A → List Node}
    (each : ∀ item ∈ items, Nests (layout item) (nodes item)) :
    Nests (items.flatMap layout) (items.flatMap nodes) := by
  induction items with
  | nil => exact Nests.nil
  | cons item rest inductionHypothesis =>
      obtain ⟨first, further⟩ := List.forall_mem_cons.mp each
      rw [List.flatMap_cons, List.flatMap_cons]
      exact first.append (inductionHypothesis further)

theorem nests_map {A : Type} {items : List A} {step : A → Step} {node : A → Node}
    (each : ∀ item ∈ items, Nests [step item] [node item]) :
    Nests (items.map step) (items.map node) := by
  rw [List.map_eq_flatMap, List.map_eq_flatMap]
  exact nests_flatMap each

theorem nests_enumeration (names : Names) (wellNamed : catalog.WellNamed) :
    Nests (enumeration catalog names) (enumerationNodes catalog names) := by
  have variants : Nests (catalog.entries.map variant) (catalog.entries.map variantNode) := by
    apply nests_map
    intro entry member
    exact nests_variant (wellNamed.entries entry member)
  have opens : lineKind (opening ("pub enum " ++ names.enumName)) = .opens := by
    simp [lineKind, opening, List.getLast?_cons, List.getLast?_append]
  have title : lineKind ("/// Localized phrases. Default language: " ++
      backquote catalog.defaultLanguage ++ ".") = .plain := by
    simp [lineKind, List.getLast?_cons, List.getLast?_append]
  have allowed : lineKind "#[allow(non_snake_case)]" = .plain := by decide
  have derived : lineKind "#[derive(Debug, Clone, PartialEq, Eq, Hash)]" = .plain := by decide
  exact (Nests.line title).append ((Nests.line allowed).append ((Nests.line derived).append
    (Nests.block opens variants)))

theorem nests_source (source : String) : Nests (sourceConstant source) (sourceNodes source) := by
  have titled : lineKind "/// Catalog this code was generated from." = .plain := by decide
  have constant : lineKind ("pub const SOURCE: &'static str = " ++ quote source ++ ";") =
      .plain := by
    simp [lineKind, List.getLast?_cons, List.getLast?_append]
  exact (Nests.line titled).append ((Nests.line constant).append Nests.blank)

theorem nests_systemAccessor : Nests systemAccessor systemAccessorNodes := by
  have titled : lineKind "/// Translation for the system language." = .plain := by decide
  have call : lineKind "self.string_for(Self::system_language())" = .plain := by decide
  exact (Nests.line titled).append (Nests.block (by decide) (Nests.line call))

theorem lineKind_methodCall (language : String) : lineKind (methodCall language) = .plain := by
  simp [lineKind, methodCall, List.getLast?_cons, List.getLast?_append]

theorem nests_localeAccessor (catalog : Catalog) :
    Nests (localeAccessor catalog) (localeNodes catalog) := by
  have calls : ∀ test ∈ localeTests catalog, lineKind test.2 = .plain := by
    intro test member
    obtain ⟨language, _, rfl⟩ := List.mem_map.mp member
    exact lineKind_methodCall language
  have inner := nests_chain calls (lineKind_methodCall catalog.defaultLanguage)
  rw [localeTests, List.map_map] at inner
  have titled : lineKind
      ("/// Translation for `locale`: the first language that is a prefix of it, else " ++
        backquote catalog.defaultLanguage ++ ".") = .plain := by
    simp [lineKind, List.getLast?_cons, List.getLast?_append]
  exact (Nests.line titled).append (Nests.block (by decide) inner)

theorem nests_arms (catalog : Catalog) (language : String) :
    Nests (arms catalog language) ((wordingsIn catalog language).map fun (entry, wording) =>
      armNode entry wording) := by
  have same : ((wordingsIn catalog language).map fun (entry, wording) => armNode entry wording) =
      catalog.entries.flatMap fun entry =>
        ((entry.wording? language).map (armNode entry)).toList := by
    rw [wordingsIn, List.map_filterMap, List.filterMap_eq_flatMap_toList]
    simp only [Option.map_map, Function.comp_def]
  rw [same, arms]
  apply nests_flatMap
  intro entry _
  cases entry.wording? language with
  | none => exact Nests.nil
  | some wording => exact nests_arm entry wording

theorem nests_languageAccessor (catalog : Catalog) (language : String) :
    Nests (languageAccessor catalog language) (languageNodes catalog language) := by
  have opens : lineKind (opening ("pub fn " ++ Language.methodName language ++
      "(&self) -> String")) = .opens := by
    simp [lineKind, opening, List.getLast?_cons, List.getLast?_append]
  have body : Nests (if catalog.entries.isEmpty then [.line "match *self \x7b\x7d"]
      else .opens (opening "match self") :: arms catalog language ++ [.closes "\x7d"])
      (languageBody catalog language) := by
    rw [languageBody]
    split
    · exact Nests.line (by decide)
    · exact Nests.block (by decide) (nests_arms catalog language)
  have titled : lineKind ("/// " ++ backquote language ++ " translation.") = .plain := by
    simp [lineKind, List.getLast?_cons, List.getLast?_append]
  exact (Nests.line titled).append (Nests.block opens body)

theorem nests_lines (texts : List String) (plain : ∀ text ∈ texts, lineKind text = .plain) :
    Nests (texts.map .line) (texts.map .line) := by
  apply nests_map
  intro text member
  exact Nests.line (plain text member)

theorem nests_systemLanguage : Nests systemLanguage systemLanguageNodes := by
  have inner := nests_lines
    ["[" ++ commaSeparated (localeVariables.map quote) ++ "]", "    .into_iter()",
      "    .filter_map(|name| std::env::var(name).ok())", "    .find(|value| !value.is_empty())",
      "    .unwrap_or_default()"] (by decide +kernel)
  have opens : lineKind (opening "LANGUAGE.get_or_init(||") = .opens := by decide
  have closed : Ends [.closes "\x7d)"] [] := Ends.close (by decide)
  have once := Nests.blocks opens inner closed
  have memory : lineKind
      "static LANGUAGE: std::sync::OnceLock<String> = std::sync::OnceLock::new();" = .plain := by
    decide
  exact Nests.block (by decide) ((Nests.line memory).append once)

theorem nests_accessors (wellNamed : catalog.WellNamed) (embedded : Option String) :
    Nests (accessors catalog names embedded) (accessorNodes catalog names embedded) := by
  have source : Nests ((embedded.map sourceConstant).getD [])
      ((embedded.map sourceNodes).getD []) := by
    cases embedded with
    | none => exact Nests.nil
    | some text => exact nests_source text
  have languages : Nests
      (catalog.languages.flatMap fun language => .blank :: languageAccessor catalog language)
      (catalog.languages.flatMap fun language => .line "" :: languageNodes catalog language) :=
    nests_flatMap fun language _ => Nests.blank.append (nests_languageAccessor catalog language)
  have items := (((source.append nests_systemAccessor).append
    (Nests.blank.append (nests_localeAccessor catalog))).append languages).append
      (Nests.blank.append nests_systemLanguage)
  have opens : lineKind (opening ("impl " ++ names.enumName)) = .opens := by
    simp [lineKind, opening, List.getLast?_cons, List.getLast?_append]
  have allowed : lineKind "#[allow(non_snake_case, unused_variables)]" = .plain := by decide
  have implementation := Nests.blank.append ((Nests.line allowed).append (Nests.block opens items))
  have nests := (nests_enumeration names wellNamed).append implementation
  simpa [accessors, accessorNodes, implementationNodes] using nests

/-- The hyphens of a code are underscores in the name of its method. -/
theorem isWord_methodName {language : String} (isCode : Language.isCode language.toList) :
    IsWord (Language.methodName language) := by
  have kept (character : Char) (allowed : continuesName character || character == '-') :
      continuesName (if character == '-' then '_' else character) := by
    split
    · rfl
    · rename_i noHyphen
      simpa [noHyphen] using allowed
  cases isText : language.toList with
  | nil => simp [isText, Language.isCode] at isCode
  | cons first rest =>
      rw [isText, Language.isCode, Bool.and_eq_true, List.all_eq_true] at isCode
      obtain ⟨starts, continues⟩ := isCode
      constructor
      · intro isEmpty
        rw [Language.methodName, ← String.toList_eq_nil_iff, String.toList_map, isText] at isEmpty
        cases isEmpty
      · rw [Language.methodName, String.toList_map, isText, List.all_map, List.all_eq_true]
        intro character member
        apply kept
        obtain same | further := List.mem_cons.mp member
        · rw [same, continuesName, Char.isAlphanum, starts]
          rfl
        · exact continues character further

/-- The tokens of the line that opens the method of a language. -/
theorem tokens_methodHead {language : String} (isWord : IsWord (Language.methodName language)) :
    tokens? (opening ("pub fn " ++ Language.methodName language ++ "(&self) -> String")) =
      some [.word "pub", .word "fn", .word (Language.methodName language), .mark '(', .mark '&',
        .word "self", .mark ')', .mark '-', .mark '>', .word "String", .mark '\x7b'] := by
  have start : Spells .between "pub fn " [.word "pub", .word "fn"] .between := rfl
  have named : Spells .between (Language.methodName language ++ "(&self) -> String \x7b")
      (.word (Language.methodName language) :: [.mark '(', .mark '&', .word "self", .mark ')',
        .mark '-', .mark '>', .word "String", .mark '\x7b']) .between :=
    Spells.wordThen isWord fun _ => rfl
  have same : opening ("pub fn " ++ Language.methodName language ++ "(&self) -> String") =
      "pub fn " ++ (Language.methodName language ++ "(&self) -> String \x7b") := by
    rw [show "(&self) -> String \x7b" = "(&self) -> String" ++ " \x7b" from rfl]
    simp only [opening, String.append_assoc]
  rw [same]
  exact (start.append named).tokens_eq

theorem functionName_language {language : String} (isWord : IsWord (Language.methodName language)) :
    functionName? (opening ("pub fn " ++ Language.methodName language ++ "(&self) -> String")) =
      some (Language.methodName language) := by
  rw [functionName?, tokens_methodHead isWord]
  rfl

/-- The functions of the accessors, in order. -/
theorem functions_implementationNodes (wellNamed : catalog.WellNamed) (embedded : Option String) :
    functions (implementationNodes catalog embedded) =
      [("string", [.line "self.string_for(Self::system_language())"]),
        ("string_for", localeBody catalog)] ++
      (catalog.languages.map fun language =>
        (Language.methodName language, languageBody catalog language)) ++
      [("system_language", systemLanguageBody)] := by
  have source : functions ((embedded.map sourceNodes).getD []) = [] := by
    cases embedded <;> rfl
  have system : functions systemAccessorNodes =
      [("string", [.line "self.string_for(Self::system_language())"])] := rfl
  have locale : functions (localeNodes catalog) = [("string_for", localeBody catalog)] := rfl
  have last : functions systemLanguageNodes = [("system_language", systemLanguageBody)] := rfl
  have each : functions (catalog.languages.flatMap fun language =>
      .line "" :: languageNodes catalog language) = catalog.languages.map fun language =>
        (Language.methodName language, languageBody catalog language) := by
    rw [functions, List.filterMap_flatMap, List.map_eq_flatMap]
    apply List.flatMap_congr
    intro language known
    have isName := functionName_language
      (isWord_methodName (Language.isCode_of_check (wellNamed.languages _ known)).1)
    simp [languageNodes, List.filterMap_cons, Node.function?, isName]
  simp only [functions] at source system locale last each ⊢
  simp only [implementationNodes, List.filterMap_append, List.filterMap_cons, Node.function?,
    source, system, locale, last, each, List.nil_append]
  rfl

/-- No two functions of the accessors have one name. -/
theorem nodup_functions (wellNamed : catalog.WellNamed) (embedded : Option String) :
    ((functions (implementationNodes catalog embedded)).map Prod.fst).Nodup := by
  have methods : (catalog.languages.map Language.methodName).Nodup := wellNamed.methods
  have free : ∀ name ∈ catalog.languages.map Language.methodName,
      name ∉ Language.reservedNames := by
    intro name member
    obtain ⟨language, known, rfl⟩ := List.mem_map.mp member
    exact (Language.isCode_of_check (wellNamed.languages language known)).2.1
  have names : (functions (implementationNodes catalog embedded)).map Prod.fst =
      ["string", "string_for"] ++ catalog.languages.map Language.methodName ++
        ["system_language"] := by
    rw [functions_implementationNodes wellNamed]
    simp
  rw [names]
  have first : ["string", "string_for"] ⊆ Language.reservedNames := by decide
  have last : "system_language" ∈ Language.reservedNames := by decide
  have isFree : ∀ reserved ∈ ["string", "string_for"],
      ∀ name ∈ catalog.languages.map Language.methodName, reserved ≠ name := by
    intro reserved isReserved name member same
    rw [same] at isReserved
    exact free name member (first isReserved)
  rw [List.append_assoc]
  apply List.nodup_append.mpr
  refine ⟨by decide, ?_, ?_⟩
  · rw [List.nodup_append]
    refine ⟨methods, by decide, ?_⟩
    intro name member reserved isReserved same
    rw [List.mem_singleton.mp isReserved] at same
    rw [same] at member
    exact free _ member last
  · intro reserved isReserved name member
    rcases List.mem_append.mp member with isMethod | isLast
    · exact isFree reserved isReserved name isMethod
    · intro same
      rw [same, List.mem_singleton.mp isLast] at isReserved
      exact absurd isReserved (by decide)

/-- A name that some function has is the name of that function only. -/
theorem functionBody_eq (wellNamed : catalog.WellNamed) {embedded : Option String}
    {name : String} {body : List Node}
    (member : (name, body) ∈ functions (implementationNodes catalog embedded)) :
    functionBody? name (implementationNodes catalog embedded) = some body := by
  rw [functionBody?, Lists.filter_of_nodup (nodup_functions wellNamed embedded) member]

/-- The accessor of locales has the tests of the locale for its body. -/
theorem functionBody_locale (wellNamed : catalog.WellNamed) (embedded : Option String) :
    functionBody? "string_for" (implementationNodes catalog embedded) =
      some (localeBody catalog) := by
  apply functionBody_eq wellNamed
  rw [functions_implementationNodes wellNamed]
  simp

/-- The method of a language has the arms of the language for its body. -/
theorem functionBody_language (wellNamed : catalog.WellNamed) (embedded : Option String)
    {language : String} (known : language ∈ catalog.languages) :
    functionBody? (Language.methodName language) (implementationNodes catalog embedded) =
      some (languageBody catalog language) := by
  apply functionBody_eq wellNamed
  rw [functions_implementationNodes wellNamed]
  have isMethod : (Language.methodName language, languageBody catalog language) ∈
      catalog.languages.map fun language =>
        (Language.methodName language, languageBody catalog language) :=
    List.mem_map.mpr ⟨language, known, rfl⟩
  simp [isMethod]

theorem implementation_accessorNodes (catalog : Catalog) (names : Names)
    (embedded : Option String) :
    implementation? names (accessorNodes catalog names embedded) =
      some (implementationNodes catalog embedded) := by
  have differs : (opening ("pub enum " ++ names.enumName) == opening ("impl " ++ names.enumName)) =
      false := by
    rw [beq_eq_false_iff_ne]
    intro same
    have letters := congrArg (·.toList.head?) same
    simp [opening] at letters
  have head : "impl " ++ names.enumName ++ " \x7b" = opening ("impl " ++ names.enumName) := rfl
  rw [implementation?, head]
  simp [accessorNodes, enumerationNodes, List.filterMap_cons, Node.under?, differs]

end

end Phrasebook.Code
