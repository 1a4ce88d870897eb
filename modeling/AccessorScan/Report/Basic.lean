import AccessorScan.Accessor.Verdict
import AccessorScan.Count

/-!
# `AccessorScan.Report.Basic` — reports on files and scans

## Contents
- `FileReport`: the verdicts on one file, or why there are none.
- `Summary`: the counts over all files of a scan; `Summary.ofFiles` is a sum over the files.
- `ScanReport`.
-/

namespace AccessorScan

structure FileReport where
  path : String
  methods : List Verdict
  /-- Why the file could not be read, if it could not. -/
  error : Option String
  deriving DecidableEq, Repr

/-- The verdicts that found an accessor. -/
def FileReport.accessors (r : FileReport) : List Verdict := r.methods.filter Verdict.isAccessor

structure Summary where
  files : Nat
  failedFiles : Nat
  methods : Nat
  getters : Nat
  setters : Nat
  deriving DecidableEq, Repr

namespace Summary

def zero : Summary := ⟨0, 0, 0, 0, 0⟩

def add (a b : Summary) : Summary :=
  ⟨a.files + b.files, a.failedFiles + b.failedFiles, a.methods + b.methods, a.getters + b.getters,
    a.setters + b.setters⟩

/-- What one verdict adds. -/
def ofVerdict (v : Verdict) : Summary :=
  match v.accessor with
  | some (.getter _) => ⟨0, 0, 1, 1, 0⟩
  | some (.setter _) => ⟨0, 0, 1, 0, 1⟩
  | none => ⟨0, 0, 1, 0, 0⟩

/-- What one file adds. -/
def ofFile (r : FileReport) : Summary :=
  (r.methods.map ofVerdict).foldl add ⟨1, if r.error.isSome then 1 else 0, 0, 0, 0⟩

def ofFiles (files : List FileReport) : Summary := (files.map ofFile).foldl add zero

/-- Getters and setters together, as a 64-bit count. -/
def accessors (s : Summary) : Nat := wrappedSum s.getters s.setters

end Summary

structure ScanReport where
  root : String
  files : List FileReport
  summary : Summary
  deriving DecidableEq, Repr

end AccessorScan
