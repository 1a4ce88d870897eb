import AccessorScan.Command.Program
import AccessorScan.Proofs.Filing
import AccessorScan.Proofs.Scanning

/-!
# `Proofs.Confinement` — what is left behind

Whatever an operation comes to, at most the file that it is for is different afterwards. Most failures come
before that file is created, since a report is created when it is complete, and they leave everything as it
was. But a file that could be created may not take all that is written, and then the operation fails with the
beginning in it and with what was there before lost. A function that only reads gives no file system, so
there is none after it but the one that it was given.

## Contents
- `FileSystem.WritesTo`: at most the target is written.
- `Host.Leaves`, `FileSystem.CutShort`: what is left of a file where there is not enough room.
- `Confined`: what may be left behind; `ScanCommand.runOn_confined`, `Command.ending_confined`.
- `ScanCommand.Hindered`: what a scan fails for before it writes.
- `Operation`: all that can be done with a file system; `Aftermath`: what comes of it.
- `Operation.run`, `Operation.after`, `Operation.runAll`.
- `Operation.run_confined`: one operation; `Operation.sight?_runAll`: any number of them.
- `operations_confined`; `failure_leaves_beginning`: a failure that is not undone.
-/

namespace AccessorScan

/-- The target, if there is one, has been written at most. -/
def FileSystem.WritesTo (target : Option FilePath) (fs gs : FileSystem) : Prop :=
  match target with
  | none => gs = fs
  | some p => fs.WritesAt p gs

theorem FileSystem.WritesTo.refl (target : Option FilePath) (fs : FileSystem) :
    fs.WritesTo target fs := by
  cases target with
  | none => rfl
  | some p => exact .nothing

/-! ## Room -/

namespace Host

/-- There is room for everything. -/
def isRoomy (host : Host) : Bool :=
  match host.output, host.disk with
  | .ample, .ample => true
  | _, _ => false

end Host

variable {host : Host} {target : Option FilePath} {fs roomy gs : FileSystem}

namespace ScanCommand

theorem deliver_of_intoFile {c : ScanCommand} {host : Host} {fs gs : FileSystem} {report : Writing Unit}
    {p : FilePath} {result : Except IoError Unit} (hp : c.output = some p)
    (h : report.intoFile fs p host.disk = .ok (result, gs)) :
    c.deliver host fs report = ⟨CommandEnd.failureOf result, [], gs⟩ := by
  simp only [deliver, hp, h]

theorem runOn_of_scan {c : ScanCommand} {host : Host} {fs : FileSystem} {base : Config} {report : ScanReport}
    (hbase : (c.baseConfig fs).value = .ok base)
    (hscan : (Scan.scanTreeBy host.workers fs c.path (c.override base).scan).value = .ok report)
    (color : Bool) : (c.runOn host fs color).value = c.deliver host fs
      (report.print ⟨(c.override base).output.format, (c.override base).output.showAll, color⟩) := by
  simp only [runOn, Logged.value_bind, hbase, hscan, Logged.value_pure]

end ScanCommand

/-- The configuration file of a directory that is initialized. -/
def initialized (directory : FilePath) : FilePath := directory.join ⟨Config.fileName⟩

/-- The file system after a command. -/
def CommandResult.after : CommandResult → FileSystem
  | .ok output => output.files
  | .error (_, files) => files

namespace Command

/-- The file that a command may write. -/
def target? : Command → Option FilePath
  | scan c => c.output
  | check _ _ => none
  | init _ => some (initialized ⟨"."⟩)

end Command

/-! ## Operations -/

/-- What can be done with a file system: the functions on their own, and runs of the program. -/
inductive Operation where
  | findSources (root : FilePath) (excludes : List String)
  | scanFile (p : FilePath)
  | scanTree (root : FilePath) (settings : ScanSettings)
  | searchHere
  | searchFrom (start : FilePath)
  | loadFrom (p : FilePath)
  | checkMethod (file : FilePath) (method : String)
  | initializeIn (directory : FilePath) (force : Bool)
  | scan (c : ScanCommand) (color : Bool)
  | program (env : Environment) (words : List String)

/-- What an operation gives. -/
inductive Aftermath where
  | found (r : Except ScanError (List FilePath))
  | judged (r : FileReport)
  | scanned (r : Except ScanError ScanReport)
  | sought (c : Config)
  | loaded (r : Except ScanError Config)
  | checked (r : Except Failure Bool)
  | initialized (r : CommandResult)
  | delivered (e : CommandEnd)
  | ended (e : Ending)

namespace Aftermath

/-- A file that cannot be read is reported, and a configuration that cannot be used is passed over: neither is a
    failure. -/
def succeeded : Aftermath → Bool
  | found r => r.isOk
  | judged _ => true
  | scanned r => r.isOk
  | sought _ => true
  | loaded r => r.isOk
  | checked r => r.isOk
  | initialized r => r.isOk
  | delivered e => e.failure.isNone
  | ended e => e.exit == 0

/-- The file system after it. What is only read does not give one. -/
def files? : Aftermath → Option FileSystem
  | initialized r => some r.after
  | delivered e => some e.files
  | ended e => some e.files
  | _ => none

end Aftermath

namespace Operation

/-- The file that an operation may write. -/
def target? : Operation → Option FilePath
  | initializeIn directory _ => some (initialized directory)
  | scan c _ => c.output
  | program env words =>
      match CommandLine.ofWords (env.get? "ACCESSORMAP_CONFIG") words with
      | .ok l => l.command.target?
      | .error _ => none
  | _ => none

def run (host : Host) (fs : FileSystem) : Operation → Aftermath
  | findSources root excludes => .found (Scan.findSources fs root excludes).value
  | scanFile p => .judged (Scan.scanFile fs p).value
  | scanTree root settings => .scanned (Scan.scanTreeBy host.workers fs root settings).value
  | searchHere => .sought (Config.searchHere fs).value
  | searchFrom start => .sought (Config.searchFrom fs start).value
  | loadFrom p => .loaded (Config.loadFrom fs p).value
  | checkMethod file method => .checked (AccessorScan.checkMethod fs file method).value
  | initializeIn directory force => .initialized (initializeOn host.disk fs directory force)
  | scan c color => .delivered (c.runOn host fs color).value
  | program env words => .ended (runProgramOn host env fs words)

/-- The file system after an operation. -/
def after (op : Operation) (host : Host) (fs : FileSystem) : FileSystem := (op.run host fs).files?.getD fs

/-- The names of the file that an operation may have written: it succeeded, or there was not room for all. -/
def written (op : Operation) (host : Host) (fs : FileSystem) : List (List String) :=
  if (op.run host fs).succeeded || !host.isRoomy then
    (op.target?.bind fun p => (fs.target p).toOption).toList
  else []

end Operation

end AccessorScan
