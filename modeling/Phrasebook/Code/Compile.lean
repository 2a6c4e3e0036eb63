/-
This file compiles the source of a catalog to code.
-/

import Phrasebook.Code.Accessors

namespace Phrasebook.Code

structure Options where
  /-- Names in parentheses must be parameters. -/
  strict : Bool := false
  names : Names := {}
  embedSource : Bool := false
  deriving Repr, DecidableEq

structure Artifacts where
  accessors : String
  facade : String
  deriving Repr, DecidableEq

def header : String :=
  "// This file is @generated by locgen. DO NOT EDIT."

/-- Both artifacts in one file. -/
def Artifacts.source (artifacts : Artifacts) : String :=
  header ++ "\n\n" ++ artifacts.accessors ++ "\n" ++ artifacts.facade

/-- Writes the code of a catalog; the source is embedded only where the options ask for it. -/
def generate (catalog : Catalog) (options : Options) (source : Option String) : Artifacts :=
  let embedded := if options.embedSource then source else none
  ⟨(accessors catalog options.names embedded).render, (facade catalog options.names).render⟩

def compile (source : String) (options : Options) : Except Defect Artifacts := do
  let catalog ← Catalog.parse options.strict source
  return generate catalog options (some source)

end Phrasebook.Code
