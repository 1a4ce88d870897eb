import AccessorScan.Config.Search
import AccessorScan.Report.Filing
import AccessorScan.Scan.Basic

/-!
# `AccessorScan.Command.Basic` — the commands

A command reads a file system and gives what it prints, the file system after it, and what it tells. It
depends on a host as well: how much can be printed and written there, and who scans. Without one it is run
where there is room for everything.

## Contents
- `Host`, `Host.able`.
- `CommandEnd`: how a command ends; `CommandOutput`, `CommandResult`: what a caller sees of that.
- `ScanCommand`, `ScanCommand.override`, `ScanCommand.deliver`, `ScanCommand.runOn`, `ScanCommand.run`.
- `checkMethod`: whether one method is an accessor.
- `initializeOn`, `initializeIn`: writes a configuration file to start from.
-/

namespace AccessorScan

/-- What a run depends on beside the files and its arguments. -/
structure Host where
  /-- The room for what is printed. -/
  output : Room
  /-- The room for what is written into a file. -/
  disk : Room
  workers : Scan.Workers

/-- Everything that is printed and written is taken, and files are scanned in their order. -/
def Host.able : Host := ⟨.ample, .ample, .inTurn⟩

/-! ## Ends -/

/-- What a command that succeeds prints, and the file system after it. -/
structure CommandOutput where
  printed : String
  files : FileSystem

/-- The end of a command: its output, or why it failed with the file system it leaves. -/
abbrev CommandResult := Except (Failure × FileSystem) CommandOutput

/-- How a command ends, whatever became of its printing. -/
structure CommandEnd where
  /-- Why it failed, if it did. -/
  failure : Option Failure
  /-- What has been taken of what it prints. -/
  printed : List UInt8
  files : FileSystem

namespace CommandEnd

/-- The end of a command that fails before it prints or writes anything. -/
def failed (failure : Failure) (fs : FileSystem) : CommandEnd := ⟨some failure, [], fs⟩

/-- The failure of work that ends like this. -/
def failureOf : Except IoError Unit → Option Failure
  | .ok () => none
  | .error e => some ⟨[], .io e⟩

/-- What a caller sees of it. -/
def result (e : CommandEnd) : CommandResult :=
  match e.failure with
  | none => .ok ⟨(String.fromUTF8? ⟨e.printed.toArray⟩).getD "", e.files⟩
  | some failure => .error (failure, e.files)

end CommandEnd

/-! ## Scan -/

/-- The parts of a scan command; those not given follow the configuration. -/
structure ScanCommand where
  path : FilePath
  format : Option OutputFormat
  output : Option FilePath
  config : Option FilePath
  jobs : Option Nat
  all : Bool
  deriving DecidableEq, Repr

namespace ScanCommand

/-- The configuration that a command names, or the one that applies to the current directory. -/
def baseConfig (c : ScanCommand) (fs : FileSystem) : Logged (Except ScanError Config) :=
  match c.config with
  | some p => Config.loadFrom fs p
  | none => do return .ok (← Config.searchHere fs)

/-- A configuration with what the command says put in place of what it holds. -/
def override (c : ScanCommand) (base : Config) : Config where
  scan := { base.scan with jobs := c.jobs.getD base.scan.jobs }
  output := ⟨c.format.getD base.output.format, base.output.showAll || c.all⟩

/-- The report written where the command says. -/
def deliver (c : ScanCommand) (host : Host) (fs : FileSystem) (report : Writing Unit) : CommandEnd :=
  match c.output with
  | none =>
      let (result, sink) := report.into host.output.sink
      ⟨CommandEnd.failureOf result, sink.taken, fs⟩
  | some p =>
      match report.intoFile fs p host.disk with
      | .error e => .failed ((Failure.mk [] (.io e)).within ("Failed to create " ++ p.text)) fs
      | .ok (result, files) => ⟨CommandEnd.failureOf result, [], files⟩

def runOn (c : ScanCommand) (host : Host) (fs : FileSystem) (color : Bool) : Logged CommandEnd := do
  match ← c.baseConfig fs with
  | .error e => return .failed (.ofScan e) fs
  | .ok base => do
      let config := c.override base
      match ← Scan.scanTreeBy host.workers fs c.path config.scan with
      | .error e =>
          return .failed ((Failure.ofScan e).within ("Failed to scan " ++ c.path.text)) fs
      | .ok report =>
          return c.deliver host fs
            (report.print ⟨config.output.format, config.output.showAll, color⟩)

def run (c : ScanCommand) (fs : FileSystem) (color : Bool) : Logged CommandResult := do
  return (← c.runOn .able fs color).result

end ScanCommand

/-! ## Check -/

def checkTarget : String := "accessormap::commands::check"

/-- How a verdict is shown in messages. -/
def Accessor.shown : Option Accessor → String
  | none => "None"
  | some a =>
      let kind := match a with | .getter _ => "Getter" | .setter _ => "Setter"
      "Some(" ++ kind ++ " \x7b property: " ++ shownText a.property ++ " \x7d)"
where
  /-- A text in quotes. What would end the quotes or the line is written with a backslash, and so are
  the other control characters. (A mark that combines with the letter before it stays as it is here.) -/
  shownText (s : String) : String := "\"" ++ String.join (s.toList.map shownChar) ++ "\""
  shownChar (c : Char) : String :=
    match c with
    | '\x00' => "\\0"
    | '\t' => "\\t"
    | '\n' => "\\n"
    | '\r' => "\\r"
    | '"' => "\\\""
    | '\\' => "\\\\"
    | c =>
        if c.toNat < 32 ∨ 127 ≤ c.toNat ∧ c.toNat < 160 then
          "\\u\x7b" ++ String.ofList (Nat.toDigits 16 c.toNat) ++ "\x7d"
        else c.toString

/-- Whether the first method of that name in a file is an accessor. -/
def checkMethod (fs : FileSystem) (file : FilePath) (method : String) :
    Logged (Except Failure Bool) := do
  match fs.readText file with
  | .error e => return .error ((Failure.mk [] (.io e)).within ("Failed to read " ++ file.text))
  | .ok source => do
      let report ← Scan.scanSource source file
      match Scan.findVerdict report.methods method with
      | .error e =>
          return .error ((Failure.ofScan e).within ("No method " ++ method ++ " in " ++ file.text))
      | .ok v => do
          .tell .debug checkTarget (v.qualifiedName ++ " -> " ++ Accessor.shown v.accessor)
          return .ok v.isAccessor

/-! ## Init -/

/-- The configuration file to start from. -/
def startingConfig : String :=
  "# accessormap configuration\n\n" ++
  "[scan]\n" ++
  "# Glob patterns of files to skip\n" ++
  "exclude = [\n" ++
  "    \"**/build/**\",\n" ++
  "    \"**/target/**\",\n" ++
  "    \"**/generated/**\",\n" ++
  "]\n" ++
  "# Worker threads (0 = one per CPU)\n" ++
  "jobs = 0\n\n" ++
  "[output]\n" ++
  "# \"terminal\" or \"json\"\n" ++
  "format = \"terminal\"\n" ++
  "# List every method, not only accessors\n" ++
  "show_all = false\n"

def createdMessage : String := "Created " ++ Config.fileName ++ " configuration file\n"

/-- Why a configuration file could not be written. -/
def unwritten (p : FilePath) (e : IoError) : Failure :=
  (Failure.mk [] (.io e)).within ("Failed to write " ++ p.text)

/-- Writes a configuration file into a directory. One that exists is replaced only by force. -/
def initializeOn (disk : Room) (fs : FileSystem) (directory : FilePath) (force : Bool) :
    CommandResult :=
  let p := directory.join ⟨Config.fileName⟩
  if fs.exists? p && !force then
    .error (⟨[], .plain "Configuration file already exists. Use --force to overwrite."⟩, fs)
  else
    match (Writing.text startingConfig).intoFile fs p disk with
    | .error e => .error (unwritten p e, fs)
    | .ok (.error e, files) => .error (unwritten p e, files)
    | .ok (.ok (), files) => .ok ⟨createdMessage, files⟩

def initializeIn (fs : FileSystem) (directory : FilePath) (force : Bool) :
    Except Failure CommandOutput :=
  (initializeOn .ample fs directory force).mapError Prod.fst

end AccessorScan
