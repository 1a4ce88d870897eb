import AccessorScan.Json.Writer
import AccessorScan.Json.Reader
import AccessorScan.Report.Basic

/-!
# `AccessorScan.Report.Encoding` — reports as JSON

## Contents
- `Accessor.toJson`, `Verdict.toJson`, `FileReport.toJson`, `Summary.toJson`, `ScanReport.toJson`, each with
  its reader. The error of a file report is written only where there is one.
- `ScanReport.jsonText` and `ScanReport.ofJsonText?`: the report format as text.
-/

namespace AccessorScan

def Accessor.toJson : Accessor → Json
  | .getter p => .object [("kind", .string "getter"), ("property", .string p)]
  | .setter p => .object [("kind", .string "setter"), ("property", .string p)]

def Accessor.ofJson? (v : Json) : Option Accessor := do
  let (tag, content) ← v.tagged? "kind"
  let l ← content.layout? 1
  let property ← l.required Json.string? 0 "property"
  match tag with
  | "getter" => some (.getter property)
  | "setter" => some (.setter property)
  | _ => none

/-- The entries of a verdict, in the order in which they are written. -/
def Verdict.entries (v : Verdict) : List (String × Json) :=
  [("class", .string v.owner), ("method", .string v.method), ("line", .count v.line),
    ("constructor", .bool v.isConstructor), ("accessor", .option Accessor.toJson v.accessor)]

def Verdict.toJson (v : Verdict) : Json := .object v.entries

def Verdict.ofJson? (v : Json) : Option Verdict := do
  let l ← v.layout? 5
  return ⟨← l.required Json.string? 0 "class", ← l.required Json.string? 1 "method",
    ← l.required Json.count? 2 "line", ← l.required Json.bool? 3 "constructor",
    ← l.optional Accessor.ofJson? 4 "accessor"⟩

def FileReport.toJson (r : FileReport) : Json :=
  .object ([("path", .string r.path), ("methods", .array (r.methods.map Verdict.toJson))] ++
    match r.error with
    | some e => [("error", .string e)]
    | none => [])

def FileReport.ofJson? (v : Json) : Option FileReport := do
  let l ← v.layout? 3
  return ⟨← l.required Json.string? 0 "path",
    ← l.required (Json.array? Verdict.ofJson?) 1 "methods",
    ← l.defaulted none (Json.option? Json.string?) 2 "error"⟩

def Summary.toJson (s : Summary) : Json :=
  .object [("files", .count s.files), ("failed_files", .count s.failedFiles),
    ("methods", .count s.methods), ("getters", .count s.getters), ("setters", .count s.setters)]

def Summary.ofJson? (v : Json) : Option Summary := do
  let l ← v.layout? 5
  return ⟨← l.required Json.count? 0 "files", ← l.required Json.count? 1 "failed_files",
    ← l.required Json.count? 2 "methods", ← l.required Json.count? 3 "getters",
    ← l.required Json.count? 4 "setters"⟩

def ScanReport.toJson (r : ScanReport) : Json :=
  .object [("root", .string r.root), ("files", .array (r.files.map FileReport.toJson)),
    ("summary", r.summary.toJson)]

def ScanReport.ofJson? (v : Json) : Option ScanReport := do
  let l ← v.layout? 3
  return ⟨← l.required Json.string? 0 "root",
    ← l.required (Json.array? FileReport.ofJson?) 1 "files",
    ← l.required Summary.ofJson? 2 "summary"⟩

/-- The report as JSON text, one item or entry per line. -/
def ScanReport.jsonText (r : ScanReport) : String := r.toJson.pretty

/-- The report that a JSON text describes. -/
def ScanReport.ofJsonText? (text : String) : Option ScanReport := (Json.parse? text).bind ofJson?

end AccessorScan
