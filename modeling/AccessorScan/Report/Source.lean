import AccessorScan.Model.OfTree
import AccessorScan.Report.Basic
import AccessorScan.Syntax.Source

/-!
# `AccessorScan.Report.Source` — the report on one source

## Contents
- `SourceModel`: the types that a source declares, and whether the source is broken; `SourceModel.ofSource`.
- `brokenSourceWarning`, `SourceModel.warnings`.
- `FileReport.ofModel`: the verdicts on the types.
-/

namespace AccessorScan

/-- What is said about a source that is not read as it stands. -/
def brokenSourceWarning (path : String) : String :=
  path ++ " contains syntax errors; only well-formed declarations are modeled"

/-- What a source declares. -/
structure SourceModel where
  types : List TypeDecl
  /-- The source had to be repaired. -/
  isBroken : Bool

def SourceModel.ofTree (t : Tree) : SourceModel := ⟨TypeDecl.listOfProgram t, t.isBroken⟩

def SourceModel.ofSource (source : String) : SourceModel := ofTree (syntaxTree source)

/-- The warnings about a source that is found at this path. -/
def SourceModel.warnings (m : SourceModel) (path : String) : List String :=
  if m.isBroken then [brokenSourceWarning path] else []

/-- The report on a source that was read. -/
def FileReport.ofModel (path : String) (m : SourceModel) : FileReport :=
  ⟨path, verdicts m.types, none⟩

end AccessorScan
