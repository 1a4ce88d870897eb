import AccessorScan.Failure
import AccessorScan.Json.Basic
import AccessorScan.Report.Writing

/-!
# `AccessorScan.Config.Basic` — configurations

## Contents
- `Config` with its two sections, `Config.default`.
- `toJson` and `ofJson?`.
- `Config.checkPattern`, `Config.validate`: the exclude patterns have to be patterns.
-/

namespace AccessorScan

structure ScanSettings where
  /-- Patterns of paths that are left out. -/
  excludes : List String
  /-- How many files are scanned at a time; 0 leaves it open. -/
  jobs : Nat
  deriving DecidableEq, Repr

structure OutputSettings where
  format : OutputFormat
  /-- List every method, not only accessors. -/
  showAll : Bool
  deriving DecidableEq, Repr

structure Config where
  scan : ScanSettings
  output : OutputSettings
  deriving DecidableEq, Repr

def ScanSettings.default : ScanSettings := ⟨[], 0⟩

def OutputSettings.default : OutputSettings := ⟨.terminal, false⟩

namespace Config

def default : Config := ⟨.default, .default⟩

/-! ## Validity -/

/-- Nothing, if the text is a pattern; the fault is told with the text. -/
def checkPattern (text : String) : Except ScanError Unit :=
  match Glob.ofText text with
  | .ok _ => .ok ()
  | .error e =>
      .error (.configuration ("invalid exclude pattern '" ++ text ++ "': " ++ e.message))

/-- The configuration itself, if its exclude patterns are patterns. They are tried one by one. -/
def validate (c : Config) : Except ScanError Config := do
  for text in c.scan.excludes do
    checkPattern text
  return c

end Config

/-! ## JSON -/

def OutputFormat.toJson (f : OutputFormat) : Json := .string f.word

def OutputFormat.ofJson? (v : Json) : Option OutputFormat := v.word?.bind ofWord?

def ScanSettings.toJson (s : ScanSettings) : Json :=
  .object [("exclude", .array (s.excludes.map .string)), ("jobs", .count s.jobs)]

def ScanSettings.ofJson? (v : Json) : Option ScanSettings := do
  let l ← v.layout? 2
  return ⟨← l.defaulted [] (Json.array? Json.string?) 0 "exclude",
    ← l.defaulted 0 Json.count? 1 "jobs"⟩

def OutputSettings.toJson (s : OutputSettings) : Json :=
  .object [("format", s.format.toJson), ("show_all", .bool s.showAll)]

def OutputSettings.ofJson? (v : Json) : Option OutputSettings := do
  let l ← v.layout? 2
  return ⟨← l.defaulted .terminal OutputFormat.ofJson? 0 "format",
    ← l.defaulted false Json.bool? 1 "show_all"⟩

def Config.toJson (c : Config) : Json :=
  .object [("scan", c.scan.toJson), ("output", c.output.toJson)]

def Config.ofJson? (v : Json) : Option Config := do
  let l ← v.layout? 2
  return ⟨← l.defaulted .default ScanSettings.ofJson? 0 "scan",
    ← l.defaulted .default OutputSettings.ofJson? 1 "output"⟩

end AccessorScan
