/-
This file puts together what the generated code declares. The main statement is that the items of
the code are well formed.
-/

import Phrasebook.Code.Compile
import Phrasebook.Proofs.Code.Reference
import Phrasebook.Proofs.Code.Shortcut

namespace Phrasebook.Code

open Text

/-- What code declares: the items of the enum, its variants with their fields, and shortcuts. -/
structure Outline where
  items : List Item
  variants : List (String × List String)
  shortcuts : List Shortcut
  deriving Repr, DecidableEq

/-- The declarations in the lines of the accessors and of the shortcuts, where all are read. -/
def outline? (names : Names) (accessors shortcuts : List String) : Option Outline := do
  let nodes ← items? names accessors
  let items ← declared? item? nodes
  let variants ← variants? names accessors
  let shortcuts ← shortcuts? names shortcuts
  return ⟨items, variants, shortcuts⟩

/-- The body of a method of the accessors. -/
def methodBody? (names : Names) (accessors : List String) (method : String) :
    Option (List Node) :=
  (items? names accessors).bind (functionBody? method)

/-- One arm for each variant, in order and with all fields. Nothing matches where no variant is. -/
def Matches (variants : List (String × List String)) (body : List Node) : Prop :=
  if variants = [] then body = [.line "match *self \x7b\x7d"]
  else ∃ arms, arms? body = some arms ∧
    arms.map (fun arm => (arm.variant, arm.fields)) = variants

/-- Names that are allowed and differ from each other. -/
structure AreItemNames (names : List String) : Prop where
  allowed : ∀ name ∈ names, IsItemName name
  distinct : names.Nodup

namespace Outline

/-- The declarations for a catalog. -/
def ofCatalog (catalog : Catalog) (embedded : Option String) : Outline :=
  ⟨itemsOf catalog embedded,
    catalog.entries.map fun entry => (entry.variantName, entry.parameters),
    catalog.entries.map Shortcut.ofEntry⟩

structure WellNamed (outline : Outline) : Prop where
  items : AreItemNames (outline.items.map Item.name)
  variants : AreItemNames (outline.variants.map Prod.fst)
  fields : ∀ variant ∈ outline.variants, AreItemNames variant.2
  shortcuts : AreItemNames (outline.shortcuts.map Shortcut.name)
  parameters : ∀ shortcut ∈ outline.shortcuts, AreItemNames shortcut.parameters
  /-- A shortcut gives each field of a variant its own parameter. -/
  made : ∀ shortcut ∈ outline.shortcuts,
    (shortcut.variant, shortcut.fields.map Prod.fst) ∈ outline.variants ∧
      shortcut.fields.map Prod.snd = shortcut.parameters
  /-- Shortcuts call the accessor for the system language. -/
  called : .method "string" ∈ outline.items

end Outline

/-- Code declares what the catalog calls for, and no more. -/
structure WellFormed (catalog : Catalog) (names : Names) (embedded : Option String)
    (accessors shortcuts : List String) : Prop where
  outline : outline? names accessors shortcuts = some (.ofCatalog catalog embedded)
  named : (Outline.ofCatalog catalog embedded).WellNamed
  methods : ∀ language ∈ catalog.languages, ∃ body,
    methodBody? names accessors (Language.methodName language) = some body ∧
      Matches (Outline.ofCatalog catalog embedded).variants body
  /-- Outside of conditions all references have definitions. -/
  resolved : ∃ nodes, items? names accessors = some nodes ∧
    Resolves (Outline.ofCatalog catalog embedded).items
      ((Outline.ofCatalog catalog embedded).variants.map Prod.fst) false nodes

section

variable {catalog : Catalog} {names : Names}

theorem outline_generated (wellNamed : catalog.WellNamed) (embedded : Option String) :
    outline? names (accessors catalog names embedded).lines (facade catalog names).lines =
      some (.ofCatalog catalog embedded) := by
  simp only [outline?, items_accessors wellNamed, items_implementationNodes wellNamed,
    variants_accessors wellNamed, shortcuts_facade wellNamed, Option.bind_eq_bind,
    Option.bind_some]
  rfl

theorem Outline.wellNamed_ofCatalog (wellNamed : catalog.WellNamed) (embedded : Option String) :
    (Outline.ofCatalog catalog embedded).WellNamed := by
  have named : ∀ entry ∈ catalog.entries, AreItemNames entry.parameters := by
    intro entry member
    obtain ⟨_, _, _, _, identifiers, distinct⟩ := wellNamed.entries entry member
    exact ⟨fun parameter isParameter =>
      isItemName_of_isIdentifier (identifiers parameter isParameter), distinct⟩
  constructor
  · refine ⟨?_, nodup_items wellNamed embedded⟩
    intro name member
    obtain ⟨item, isItem, rfl⟩ := List.mem_map.mp member
    exact isItemName_itemsOf wellNamed embedded item isItem
  · rw [ofCatalog, List.map_map]
    constructor
    · intro name member
      obtain ⟨entry, isEntry, rfl⟩ := List.mem_map.mp member
      exact isItemName_of_isIdentifier (wellNamed.entries entry isEntry).variant
    · exact List.pairwise_map.mpr (wellNamed.apart.imp And.left)
  · intro variant member
    obtain ⟨entry, isEntry, rfl⟩ := List.mem_map.mp member
    exact named entry isEntry
  · rw [ofCatalog, List.map_map]
    constructor
    · intro name member
      obtain ⟨entry, isEntry, rfl⟩ := List.mem_map.mp member
      exact isItemName_of_isIdentifier (wellNamed.entries entry isEntry).function
    · exact List.pairwise_map.mpr (wellNamed.apart.imp And.right)
  · intro shortcut member
    obtain ⟨entry, isEntry, rfl⟩ := List.mem_map.mp member
    exact named entry isEntry
  · intro shortcut member
    obtain ⟨entry, isEntry, rfl⟩ := List.mem_map.mp member
    have fields : (Shortcut.ofEntry entry).fields.map Prod.fst = entry.parameters := by
      simp [Shortcut.ofEntry, Function.comp_def]
    have copies : (Shortcut.ofEntry entry).fields.map Prod.snd = entry.parameters := by
      simp [Shortcut.ofEntry, Function.comp_def]
    rw [fields, copies]
    exact ⟨List.mem_map.mpr ⟨entry, isEntry, rfl⟩, rfl⟩
  · simp [ofCatalog, itemsOf]

/-- The method of a language matches all entries, since each has a wording in the language. -/
theorem matches_languageBody (wellNamed : catalog.WellNamed) {language : String}
    (total : ∀ entry ∈ catalog.entries, (entry.wording? language).isSome) :
    Matches (catalog.entries.map fun entry => (entry.variantName, entry.parameters))
      (languageBody catalog language) := by
  rw [Matches]
  split
  · rename_i none
    rw [languageBody, List.map_eq_nil_iff.mp none]
    rfl
  · rename_i some
    have inhabited : catalog.entries ≠ [] := fun none => some (by rw [none]; rfl)
    refine ⟨_, arms_languageBody wellNamed inhabited, ?_⟩
    have entries : (wordingsIn catalog language).map Prod.fst = catalog.entries := by
      rw [wordingsIn, List.map_filterMap]
      apply (List.filterMap_congr _).trans List.filterMap_some
      intro entry member
      obtain ⟨wording, isWording⟩ := Option.isSome_iff_exists.mp (total entry member)
      rw [isWording]
      rfl
    conv_rhs => rw [← entries]
    rw [List.map_map, List.map_map]
    rfl

end

/-- The code that is generated for a catalog is well formed, whatever the options are. -/
theorem generate_wellFormed {strict : Bool} {source : String} {catalog : Catalog}
    (parsed : Catalog.parse strict source = .ok catalog) (options : Options)
    (attached : Option String) :
    let embedded := if options.embedSource then attached else none
    let accessorLines := (accessors catalog options.names embedded).lines
    let shortcutLines := (facade catalog options.names).lines
    (generate catalog options attached).accessors = indented 0 accessorLines ∧
      (generate catalog options attached).facade = indented 0 shortcutLines ∧
      WellFormed catalog options.names embedded accessorLines shortcutLines := by
  obtain ⟨pairs, drafts, _, reads⟩ := Catalog.parse_eq_ok_iff.mp parsed
  have wellNamed := reads.wellNamed
  have content := reads.content
  intro embedded accessorLines shortcutLines
  refine ⟨?_, ?_, ?_⟩
  · exact Layout.render_eq (nests_accessors wellNamed embedded).honest
  · exact Layout.render_eq (nests_facade catalog options.names).honest
  · refine ⟨outline_generated wellNamed embedded, Outline.wellNamed_ofCatalog wellNamed embedded,
      ?_, ?_⟩
    · intro language known
      refine ⟨languageBody catalog language, ?_, ?_⟩
      · rw [methodBody?, items_accessors wellNamed, Option.bind_some]
        exact functionBody_language wellNamed embedded known
      · apply matches_languageBody wellNamed
        intro entry member
        obtain ⟨pair, _, holds⟩ := Lists.exists_of_mem_right content.entries member
        exact (holds.total language).mpr known
    · refine ⟨_, items_accessors wellNamed embedded, ?_⟩
      have closed := closed_implementationNodes wellNamed content.defaultKnown embedded
      rw [Closed] at closed
      rw [Outline.ofCatalog, List.map_map]
      exact closed

/-- The code of a catalog with a parameter, where the source is embedded. -/
theorem houses_wellFormed :
    let code := generate Catalog.houseCatalog { embedSource := true } (some Catalog.houseSource)
    let accessorLines := (accessors Catalog.houseCatalog {} (some Catalog.houseSource)).lines
    let shortcutLines := (facade Catalog.houseCatalog {}).lines
    Catalog.parse false Catalog.houseSource = .ok Catalog.houseCatalog ∧
      code.accessors = indented 0 accessorLines ∧ code.facade = indented 0 shortcutLines ∧
      WellFormed Catalog.houseCatalog {} (some Catalog.houseSource) accessorLines shortcutLines ∧
      outline? {} accessorLines shortcutLines = some
        ⟨[.constant "SOURCE", .method "string", .method "string_for", .method "de", .method "en",
            .function "system_language"],
          [("House", []), ("Houses", ["count"])],
          [⟨"house", [], "House", []⟩, ⟨"houses", ["count"], "Houses", [("count", "count")]⟩]⟩ := by
  intro code accessorLines shortcutLines
  have parsed := Catalog.parse_houseSource false
  obtain ⟨isAccessors, isFacade, wellFormed⟩ :=
    generate_wellFormed parsed { embedSource := true } (some Catalog.houseSource)
  refine ⟨parsed, isAccessors, isFacade, wellFormed, wellFormed.outline.trans ?_⟩
  decide +kernel

end Phrasebook.Code
