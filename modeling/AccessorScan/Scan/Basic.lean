import AccessorScan.Config.Basic
import AccessorScan.Log
import AccessorScan.Report.Source

/-!
# `AccessorScan.Scan.Basic` — scanning files and directories

Every file is read and judged on its own. One that cannot be read is reported with the reason and
does not stop the scan. Several workers may share the files.

## Contents
- `scanSource`, `scanFile`: the report on one file.
- `Config.parseGlobs`, `findSources`: the files of a scan.
- `Workers`: who scans the files, and in which order; `collect`: their reports, put in order.
- `scanTreeBy`: the report on all files; `scanTree`: by one worker.
- `findVerdict`: the verdict on a method that is asked for by its qualified name.
-/

namespace AccessorScan

/-- The patterns that these texts write, or the fault of the first one that writes none. -/
def Config.parseGlobs (texts : List String) : Except ScanError (List Glob) :=
  texts.mapM fun text => (Glob.ofText text).mapError ScanError.pattern

namespace Scan

def logTarget : String := "accessormap::scan"
def sourceTarget : String := "accessormap::analyzers::java"
def walkTarget : String := "accessormap::io::walker"

/-- The model of a source, with a warning if it is broken. -/
def modelOf (source : String) (p : FilePath) : Logged SourceModel :=
  let m := SourceModel.ofSource source
  ⟨m, (m.warnings p.text).map fun w => ⟨.warn, sourceTarget, w⟩⟩

/-- The report on a source that is found under a path. -/
def scanSource (source : String) (p : FilePath) : Logged FileReport := do
  return FileReport.ofModel p.text (← modelOf source p)

/-- Why a file could not be read. -/
def unreadable (p : FilePath) (e : IoError) : ScanError :=
  .fileSystem "Failed to read source file" p e

/-- The report on a file. -/
def scanFile (fs : FileSystem) (p : FilePath) : Logged FileReport := do
  .tell .debug logTarget ("Scanning " ++ p.text)
  match fs.readText p with
  | .ok source => scanSource source p
  | .error e => do
      let message := (unreadable p e).message
      .tell .warn logTarget ("Skipping " ++ p.text ++ ": " ++ message)
      return ⟨p.text, [], some message⟩

/-- The source files at or below a starting point, without the excluded ones. -/
def findSources (fs : FileSystem) (root : FilePath) (excludes : List String) :
    Logged (Except ScanError (List FilePath)) :=
  match Config.parseGlobs excludes with
  | .error e => .quiet (.error e)
  | .ok globs =>
      match discover fs root with
      | .error e => .quiet (.error (.walk e))
      | .ok ps =>
          let (left, excluded) := splitExcluded fs root globs ps
          ⟨.ok left, excluded.map fun p =>
            ⟨.debug, walkTarget, "Skipping excluded file " ++ p.text⟩⟩

/-! ## Workers -/

/-- Those who share the files of a scan. -/
structure Workers where
  /-- Why that many of them cannot be had, if they cannot. -/
  fault? : Nat → Option String
  /-- The places of so many files, in the order in which that many workers come by them. -/
  order : Nat → Nat → List Nat
  order_perm : ∀ jobs n, (order jobs n).Perm (List.range n)

/-- Any number of them, who take the files in their order. -/
def Workers.inTurn : Workers := ⟨fun _ => none, fun _ n => List.range n, fun _ _ => .refl _⟩

/-- The reports on `n` files by their places. -/
def collect (done : List (Nat × FileReport)) (n : Nat) : List FileReport :=
  (List.range n).filterMap fun place => done.lookup place

/-! ## Scans -/

def foundMessage (n : Nat) (root : FilePath) : String :=
  "Found " ++ Nat.repr n ++ " Java files under " ++ root.text

def summaryMessage (s : Summary) : String :=
  "Scanned " ++ Nat.repr s.files ++ " files: " ++ Nat.repr s.methods ++ " methods, " ++
    Nat.repr s.getters ++ " getters, " ++ Nat.repr s.setters ++ " setters"

/-- The report on the file in a place, with the place. -/
def scanPlace (fs : FileSystem) (ps : List FilePath) (place : Nat) :
    Option (Logged (Nat × FileReport)) :=
  ps[place]?.map fun p => do return (place, ← scanFile fs p)

/-- The report on these files. -/
def scanFiles (w : Workers) (jobs : Nat) (fs : FileSystem) (root : FilePath) (ps : List FilePath) :
    Logged ScanReport := do
  let done ← Logged.sequence ((w.order jobs ps.length).filterMap (scanPlace fs ps))
  let files := collect done ps.length
  let summary := Summary.ofFiles files
  .tell .info logTarget (summaryMessage summary)
  return ⟨root.text, files, summary⟩

/-- Why the workers that a scan asks for cannot be had, if they cannot. One that does not ask for a
number takes those that are there. -/
def Workers.refusal? (w : Workers) (jobs : Nat) : Option ScanError :=
  if jobs = 0 then none
  else (w.fault? jobs).map fun e => .configuration ("Failed to build thread pool: " ++ e)

/-- The report on a file, or on all source files below a directory. -/
def scanTreeBy (w : Workers) (fs : FileSystem) (root : FilePath) (settings : ScanSettings) :
    Logged (Except ScanError ScanReport) := do
  match ← findSources fs root settings.excludes with
  | .error e => return .error e
  | .ok ps => do
      .tell .debug logTarget (foundMessage ps.length root)
      match w.refusal? settings.jobs with
      | some e => return .error e
      | none => return .ok (← scanFiles w settings.jobs fs root ps)

/-- The report of those who take the files in their order. -/
def scanTree (fs : FileSystem) (root : FilePath) (settings : ScanSettings) :
    Logged (Except ScanError ScanReport) :=
  scanTreeBy .inTurn fs root settings

/-- The first verdict with this qualified name. -/
def findVerdict (vs : List Verdict) (qualifiedName : String) : Except ScanError Verdict :=
  match findVerdict? vs qualifiedName with
  | some v => .ok v
  | none => .error (.notFound qualifiedName)

end Scan

end AccessorScan
