import AccessorScan.Command.Help
import AccessorScan.Command.Line
import AccessorScan.Log.Filter
import AccessorScan.Log.Line

/-!
# `AccessorScan.Command.Program` — a run of the program

A run depends on the environment, the file system and the words of the command line. It ends with an
exit code, what is printed, what is told beside that, and the file system after it.

## Contents
- `Environment`: variables, and whether a terminal is listening.
- `Environment.colorsOutput`, `colorsMessages`, `filter`.
- `Ending`, `Ending.printing`: how a run ends.
- `Command.ending`, `CommandLine.ending`, `runProgramOn`, `runProgram`.
-/

namespace AccessorScan

structure Environment where
  /-- The variables with their values. -/
  entries : List (String × String)
  /-- What is printed goes to a terminal. -/
  outputTerminal : Bool
  /-- What is told goes to a terminal. -/
  messageTerminal : Bool

namespace Environment

def get? (env : Environment) (name : String) : Option String :=
  (env.entries.find? fun v => v.1 == name).map (·.2)

/-- A variable is there and is not `0`. -/
def isOn (env : Environment) (name : String) : Bool := (env.get? name).any (· != "0")

/-- Whether listings are coloured. A demand for colour wins over its refusal. -/
def colorsOutput (env : Environment) : Bool :=
  if env.isOn "CLICOLOR_FORCE" then true
  else if (env.get? "NO_COLOR").isSome then false
  else env.outputTerminal && (env.get? "CLICOLOR").all (· != "0")

/-- Whether messages are coloured. The refusal of colour wins over a demand for it. -/
def colorsMessages (env : Environment) : Bool :=
  if env.get? "RUST_LOG_STYLE" = some "always" then true
  else if env.get? "RUST_LOG_STYLE" = some "never" then false
  else if (env.get? "NO_COLOR").any (!·.isEmpty) then false
  else if env.isOn "CLICOLOR_FORCE" then true
  else
    env.messageTerminal && (env.get? "CLICOLOR").all (· != "0") &&
      ((env.get? "TERM").any (· != "dumb") || env.isOn "CLICOLOR" || (env.get? "CI").isSome)

/-- Which messages are shown, and what is said about a filter that cannot be read. The environment
wins over the command line. -/
def filter (env : Environment) (verbosity : Nat) : LogFilter × List String :=
  match env.get? "RUST_LOG" with
  | some text => LogFilter.ofText text
  | none => (.ofVerbosity verbosity, [])

end Environment

/-! ## Ends of runs -/

/-- How a run of the program ends. -/
structure Ending where
  exit : Nat
  /-- What has been taken of what is printed. -/
  output : List UInt8
  /-- What is told beside that. -/
  told : String
  files : FileSystem

/-- What has been printed, as a text. -/
def Ending.printed (e : Ending) : String := (String.fromUTF8? ⟨e.output.toArray⟩).getD ""

/-- The end of a run after a command. -/
def CommandEnd.ending (e : CommandEnd) : Ending :=
  match e.failure with
  | none => ⟨0, e.printed, "", e.files⟩
  | some failure => ⟨1, e.printed, "Error: " ++ failure.report ++ "\n", e.files⟩

/-- The end of a run that has still to print something. If that is refused the run breaks off. (It also
says where it was, which is left out here.) -/
def Ending.printing (output : Room) (text : String) (fs : FileSystem) : Ending :=
  match (Writing.text text).into output.sink with
  | (.ok (), sink) => ⟨0, sink.taken, "", fs⟩
  | (.error e, sink) => ⟨101, sink.taken, "failed printing to stdout: " ++ e.message ++ "\n", fs⟩

/-- The end of a run that does nothing because of its command line. It does not matter whether what is
printed is taken. -/
def UsageError.ending (e : UsageError) (output : Room) (fs : FileSystem) : Ending :=
  if e.exitCode = 0 then ⟨0, ((Writing.text e.message).into output.sink).2.taken, "", fs⟩
  else ⟨e.exitCode, [], e.message, fs⟩

/-! ## Runs -/

/-- The end of a run of a command. -/
def Command.ending (c : Command) (host : Host) (fs : FileSystem) (color : Bool) : Logged Ending :=
  match c with
  | .scan command => do return (← command.runOn host fs color).ending
  | .check file method => do
      match ← checkMethod fs file method with
      | .ok isAccessor =>
          return .printing host.output (if isAccessor then "true\n" else "false\n") fs
      | .error e => return (CommandEnd.failed e fs).ending
  | .init force =>
      match initializeOn host.disk fs ⟨"."⟩ force with
      | .ok output => .quiet (.printing host.output output.printed output.files)
      | .error (e, files) => .quiet (CommandEnd.failed e files).ending

/-- The end of a run with what is told on the way to it. -/
def CommandLine.ending (l : CommandLine) (host : Host) (env : Environment) (fs : FileSystem) : Ending :=
  let (filter, faults) := env.filter l.verbosity
  let outcome := l.command.ending host fs env.colorsOutput
  let shown := (outcome.entries.filter filter.shows).map (LogEntry.line env.colorsMessages)
  let told := String.join (faults.map fun t => t ++ "\n") ++ String.join shown
  { outcome.value with told := told ++ outcome.value.told }

def runProgramOn (host : Host) (env : Environment) (fs : FileSystem) (words : List String) : Ending :=
  match CommandLine.ofWords (env.get? "ACCESSORMAP_CONFIG") words with
  | .ok l => l.ending host env fs
  | .error e => e.ending host.output fs

def runProgram (env : Environment) (fs : FileSystem) (words : List String) : Ending :=
  runProgramOn .able env fs words

end AccessorScan
