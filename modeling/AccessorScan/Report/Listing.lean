import AccessorScan.Report.Basic
import AccessorScan.Text.Style

/-!
# `AccessorScan.Report.Listing` — reports as a listing for a terminal

## Contents
- `Listing`: whether every method is listed, and whether colour is on.
- The styles of its parts.
- `Listing.header`, `Listing.file`, `Listing.summary`: the lines of the three parts.
- `Listing.lines`: all lines of a report, each with its line end.
-/

namespace AccessorScan

/-- How a report is listed. -/
structure Listing where
  /-- List every method, not only accessors. -/
  showAll : Bool
  color : Bool

namespace Listing

def titleStyle : Style := ⟨["1", "34"]⟩
def ruleStyle : Style := ⟨["34"]⟩
def headingStyle : Style := ⟨["1"]⟩
def alarmStyle : Style := ⟨["1", "31"]⟩
def failureStyle : Style := ⟨["31"]⟩
def successStyle : Style := ⟨["32"]⟩
def faintStyle : Style := ⟨["2"]⟩

def line (parts : List String) : String := String.join parts ++ "\n"

/-- The number, moved to the right in five columns. -/
def column (n : Nat) : String :=
  let digits := Nat.repr n
  "".pushn ' ' (5 - digits.length) ++ digits

def header (l : Listing) (r : ScanReport) : List String :=
  [line [titleStyle.paint l.color "Accessor Report"],
    line [ruleStyle.paint l.color "==============="],
    line ["Root: ", r.root],
    line []]

/-- What is said about a method at the end of its row. -/
def label (l : Listing) (v : Verdict) : String :=
  match v.accessor with
  | some a => successStyle.paint l.color (a.label ++ " (" ++ a.property ++ ")")
  | none => faintStyle.paint l.color (if v.isConstructor then "constructor" else "-")

def row (l : Listing) (v : Verdict) : String :=
  line ["  ", column v.line, "  ", v.qualifiedName, "  ", l.label v]

/-- The methods of a file that are listed. -/
def shown (l : Listing) (r : FileReport) : List Verdict :=
  r.methods.filter fun v => l.showAll || v.isAccessor

/-- A file with an error takes one line, and a file of which nothing is shown takes none. -/
def file (l : Listing) (r : FileReport) : List String :=
  match r.error with
  | some e =>
      [line [alarmStyle.paint l.color "!", " ", r.path, ": ", failureStyle.paint l.color e]]
  | none =>
      if (l.shown r).isEmpty then []
      else line [headingStyle.paint l.color r.path] :: (l.shown r).map l.row

def summary (l : Listing) (s : Summary) : List String :=
  [line [], line [headingStyle.paint l.color "Summary:"],
    line ["  Files scanned: ", Nat.repr s.files]] ++
  (if s.failedFiles > 0 then
    [line ["  Files skipped: ", failureStyle.paint l.color (Nat.repr s.failedFiles)]]
  else []) ++
  [line ["  Methods: ", Nat.repr s.methods],
    line ["  Accessors: ", successStyle.paint l.color (Nat.repr s.accessors), " (",
      Nat.repr s.getters, " getters, ", Nat.repr s.setters, " setters)"]]

def lines (l : Listing) (r : ScanReport) : List String :=
  l.header r ++ r.files.flatMap l.file ++ l.summary r.summary

end Listing

end AccessorScan
