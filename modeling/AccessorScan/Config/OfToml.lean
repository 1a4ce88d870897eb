import AccessorScan.Config.Basic
import AccessorScan.Toml.Reader

/-!
# `AccessorScan.Config.OfToml` — configurations written in TOML

A section is a table, or the array of its values in order; a date or a time counts as a section
without entries. Entries of other names are allowed, but their numbers have to be readable.

## Contents
- `TomlSection`: the entries of a section, by name or by place; `TomlSection.read`.
- `Toml.scanSettings?`, `Toml.outputSettings?`: the two sections.
- `Config.ofToml?`; `Config.ofText`: a configuration from the text of its file, validated.
-/

namespace AccessorScan

/-- The entries of a section, or its values in order. -/
inductive TomlSection where
  | keyed (entries : List (String × Toml))
  | listed (items : List Toml)

namespace TomlSection

def ofToml? : Toml → Option TomlSection
  | .table entries => some (keyed entries)
  | .array items => some (listed items)
  | .moment => some (keyed [])
  | .string _ => none
  | .integer _ => none
  | .float _ => none
  | .boolean _ => none

/-- The value at this position or under this name. -/
def find? (position : Nat) (name : String) : TomlSection → Option Toml
  | keyed entries => (entries.find? fun e => e.1 == name).map (·.2)
  | listed items => items[position]?

/-- The value of an entry that may be left out. -/
def read {α : Type} (s : TomlSection) (position : Nat) (name : String) (fallback : α)
    (ofToml? : Toml → Option α) : Option α :=
  match s.find? position name with
  | some v => ofToml? v
  | none => some fallback

/-- All entries but those of these names can be read. -/
def othersReadable (names : List String) : TomlSection → Bool
  | keyed entries => entries.all fun (name, v) => names.contains name || v.isReadable
  | listed _ => true

end TomlSection

namespace Toml

def text? : Toml → Option String
  | .string s => some s
  | _ => none

def strings? : Toml → Option (List String)
  | .array items => items.mapM text?
  | _ => none

def count? : Toml → Option Nat
  | .integer (.ofNat n) => AccessorScan.count? n
  | _ => none

def boolean? : Toml → Option Bool
  | .boolean b => some b
  | _ => none

/-- A format, by its word or as the only key of a table without content. -/
def format? : Toml → Option OutputFormat
  | .string s => OutputFormat.ofWord? s
  | .table [(s, .table [])] => OutputFormat.ofWord? s
  | .table [(s, .array [])] => OutputFormat.ofWord? s
  | _ => none

def scanSettings? (v : Toml) : Option ScanSettings := do
  let s ← TomlSection.ofToml? v
  if !s.othersReadable ["exclude", "jobs"] then none
  return ⟨← s.read 0 "exclude" [] strings?, ← s.read 1 "jobs" 0 count?⟩

def outputSettings? (v : Toml) : Option OutputSettings := do
  let s ← TomlSection.ofToml? v
  if !s.othersReadable ["format", "show_all"] then none
  return ⟨← s.read 0 "format" .terminal format?, ← s.read 1 "show_all" false boolean?⟩

end Toml

namespace Config

def ofToml? (v : Toml) : Option Config := do
  let s ← TomlSection.ofToml? v
  if !s.othersReadable ["scan", "output"] then none
  return ⟨← s.read 0 "scan" .default Toml.scanSettings?,
    ← s.read 1 "output" .default Toml.outputSettings?⟩

/-- The name of configuration files. -/
def fileName : String := ".accessormap.toml"

/-- What is said about a text that is no configuration. -/
def unreadable : ScanError :=
  .configuration ("Failed to parse " ++ fileName ++ ": not a configuration in TOML")

/-- The configuration written by the text of a file. -/
def ofText (text : String) : Except ScanError Config :=
  match (Toml.parse? text).bind ofToml? with
  | some c => c.validate
  | none => .error unreadable

end Config

end AccessorScan
