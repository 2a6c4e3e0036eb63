/-
This file writes the accessors of a catalog: an enum with a variant for each entry, a method for
each language, and a module of shortcuts.
-/

import Phrasebook.Catalog.Basic
import Phrasebook.Code.Layout
import Phrasebook.Text.Quoted

namespace Phrasebook.Code

open Text

/-- The environment variables that name the locale of the system, most important first. -/
def localeVariables : List String :=
  ["LC_ALL", "LC_MESSAGES", "LANG"]

structure Names where
  enumName : String := "Localized"
  facadeName : String := "loc"
  deriving Repr, DecidableEq

def braced (text : String) : String :=
  "\x7b " ++ text ++ " \x7d"

def opening (text : String) : String :=
  text ++ " \x7b"

def commaSeparated (items : List String) : String :=
  ", ".intercalate items

/-- The expression for the text of a template. -/
def templateExpression (template : Template) : String :=
  if template.hasPlaceholders then "format!(" ++ quote template.format ++ ")"
  else "String::from(" ++ quote template.display ++ ")"

/-- Tests in order, each with its lines, and the lines where no test holds. -/
def chain (tests : List (String × Layout)) (otherwise : Layout) : Layout :=
  match tests with
  | [] => otherwise
  | (first, lines) :: rest =>
      .opens (opening ("if " ++ first)) :: lines ++
        rest.flatMap (fun (test, lines) => .reopens (opening ("\x7d else if " ++ test)) :: lines) ++
        .reopens (opening "\x7d else") :: otherwise ++ [.closes "\x7d"]

def variant (entry : Entry) : Step :=
  if entry.key.hasParameters then
    let fields := entry.parameters.map (· ++ ": String")
    .line (entry.variantName ++ " " ++ braced (commaSeparated fields) ++ ",")
  else .line (entry.variantName ++ ",")

def enumeration (catalog : Catalog) (names : Names) : Layout :=
  [.line ("/// Localized phrases. Default language: " ++ backquote catalog.defaultLanguage ++ "."),
    .line "#[allow(non_snake_case)]",
    .line "#[derive(Debug, Clone, PartialEq, Eq, Hash)]",
    .opens (opening ("pub enum " ++ names.enumName))] ++
    catalog.entries.map variant ++ [.closes "\x7d"]

def sourceConstant (source : String) : Layout :=
  [.line "/// Catalog this code was generated from.",
    .line ("pub const SOURCE: &'static str = " ++ quote source ++ ";"),
    .blank]

def systemAccessor : Layout :=
  [.line "/// Translation for the system language.",
    .opens (opening "pub fn string(&self) -> String"),
    .line "self.string_for(Self::system_language())",
    .closes "\x7d"]

def methodCall (language : String) : String :=
  "self." ++ Language.methodName language ++ "()"

/-- The languages besides the default, which is chosen where none of them fits. -/
def candidates (catalog : Catalog) : List String :=
  catalog.languages.filter (· != catalog.defaultLanguage)

def localeAccessor (catalog : Catalog) : Layout :=
  let tests := (candidates catalog).map fun language =>
    ("locale.starts_with(" ++ quote language ++ ")", [Step.line (methodCall language)])
  [.line ("/// Translation for `locale`: the first language that is a prefix of it, else " ++
      backquote catalog.defaultLanguage ++ "."),
    .opens (opening "pub fn string_for(&self, locale: &str) -> String")] ++
    chain tests [.line (methodCall catalog.defaultLanguage)] ++ [.closes "\x7d"]

def pattern (entry : Entry) : String :=
  if entry.key.hasParameters then
    "Self::" ++ entry.variantName ++ " " ++ braced (commaSeparated entry.parameters)
  else "Self::" ++ entry.variantName

/-- The arm of an entry tests the conditions in order before it falls to the base text. -/
def arm (entry : Entry) (wording : Wording) : Layout :=
  let base := templateExpression wording.base
  if wording.conditionals.isEmpty then
    [.line (pattern entry ++ " => " ++ base ++ ",")]
  else
    let tests := wording.conditionals.map fun conditional =>
      (conditional.condition, [Step.line (templateExpression conditional.template)])
    .opens (opening (pattern entry ++ " =>")) :: chain tests [.line base] ++ [.closes "\x7d"]

def arms (catalog : Catalog) (language : String) : Layout :=
  catalog.entries.flatMap fun entry =>
    match entry.wording? language with
    | some wording => arm entry wording
    | none => []

def languageAccessor (catalog : Catalog) (language : String) : Layout :=
  let body : Layout :=
    if catalog.entries.isEmpty then [.line "match *self \x7b\x7d"]
    else .opens (opening "match self") :: arms catalog language ++ [.closes "\x7d"]
  [.line ("/// " ++ backquote language ++ " translation."),
    .opens (opening ("pub fn " ++ Language.methodName language ++ "(&self) -> String"))] ++
    body ++ [.closes "\x7d"]

def systemLanguage : Layout :=
  [.opens (opening "fn system_language() -> &'static str"),
    .line "static LANGUAGE: std::sync::OnceLock<String> = std::sync::OnceLock::new();",
    .opens (opening "LANGUAGE.get_or_init(||"),
    .line ("[" ++ commaSeparated (localeVariables.map quote) ++ "]"),
    .line "    .into_iter()",
    .line "    .filter_map(|name| std::env::var(name).ok())",
    .line "    .find(|value| !value.is_empty())",
    .line "    .unwrap_or_default()",
    .closes "\x7d)",
    .closes "\x7d"]

/-- The enum and its methods; an embedded source becomes a constant. -/
def accessors (catalog : Catalog) (names : Names) (embedded : Option String) : Layout :=
  enumeration catalog names ++
    [.blank, .line "#[allow(non_snake_case, unused_variables)]",
      .opens (opening ("impl " ++ names.enumName))] ++
    (embedded.map sourceConstant).getD [] ++ systemAccessor ++ .blank :: localeAccessor catalog ++
    (catalog.languages.flatMap fun language => .blank :: languageAccessor catalog language) ++
    .blank :: systemLanguage ++ [.closes "\x7d"]

def shortcut (names : Names) (entry : Entry) : Layout :=
  let target := "super::" ++ names.enumName ++ "::" ++ entry.variantName
  let parameters := entry.parameters.map (· ++ ": &str")
  let fields := entry.parameters.map fun parameter =>
    parameter ++ ": " ++ parameter ++ ".to_owned()"
  let construction :=
    if entry.key.hasParameters then target ++ " " ++ braced (commaSeparated fields) else target
  [.opens (opening
      ("pub fn " ++ entry.functionName ++ "(" ++ commaSeparated parameters ++ ") -> String")),
    .line (construction ++ ".string()"),
    .closes "\x7d"]

/-- A blank line between the parts. -/
def separate : List Layout → Layout
  | [] => []
  | first :: rest => first ++ rest.flatMap (.blank :: ·)

/-- The module with a function for each entry. -/
def facade (catalog : Catalog) (names : Names) : Layout :=
  [.line ("/// Shortcuts for " ++ backquote names.enumName ++ " in the system language."),
    .line "#[allow(non_snake_case)]",
    .opens (opening ("pub mod " ++ names.facadeName))] ++
    separate (catalog.entries.map (shortcut names)) ++ [.closes "\x7d"]

end Phrasebook.Code
