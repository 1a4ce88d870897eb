import AccessorScan.Count
import AccessorScan.Report.Writing
import AccessorScan.Files.Path

/-!
# `AccessorScan.Command.Form` — what may stand on a command line

A form says which options and which arguments a command takes. What has been given so far is kept in
one record for all commands.

## Contents
- `UsageError`.
- `Slot`: an option or an argument with a value; `Given` and `Slot.fill`.
- `Mark`, `OptionForm`, `Form`: the options and arguments of a command.
- `Verb`, `Verb.form`, `rootForm`.
-/

namespace AccessorScan

/-- Why the words of a command line are no command to be run. -/
inductive UsageError where
  | helpAsked
  | versionAsked
  | nothingGiven
  | commandMissing
  | commandUnknown
  | argumentMissing
  | argumentUnknown
  /-- What may be given once is given again. -/
  | repeated
  /-- A value that is missing, empty or none of those that are allowed. -/
  | valueInvalid
  /-- A value that is no number in range. -/
  | valueUnreadable
  /-- A value for an option that takes none. -/
  | valueUnwanted
  deriving DecidableEq, Repr

/-- The exit code of the program. -/
def UsageError.exitCode : UsageError → Nat
  | .helpAsked => 0
  | .versionAsked => 0
  | _ => 2

/-! ## Values -/

/-- An option or an argument with a value. -/
inductive Slot where
  | path
  | format
  | output
  | config
  | jobs
  | file
  | method
  deriving DecidableEq, Repr

/-- What a command line has given so far. -/
structure Given where
  /-- How often more messages have been asked for. -/
  verbosity : Option Nat
  path : Option FilePath
  format : Option OutputFormat
  output : Option FilePath
  config : Option FilePath
  jobs : Option Nat
  file : Option FilePath
  method : Option String
  all : Bool
  force : Bool

def Given.nothing : Given := ⟨none, none, none, none, none, none, none, none, false, false⟩

namespace Slot

def isFilled (g : Given) : Slot → Bool
  | path => g.path.isSome
  | format => g.format.isSome
  | output => g.output.isSome
  | config => g.config.isSome
  | jobs => g.jobs.isSome
  | file => g.file.isSome
  | method => g.method.isSome

def readPath (text : String) : Except UsageError FilePath :=
  if text.isEmpty then .error .valueInvalid else .ok ⟨text⟩

def readFormat (text : String) : Except UsageError OutputFormat :=
  match OutputFormat.ofWord? text with
  | some f => .ok f
  | none => .error .valueInvalid

/-- The number that decimal digits write. -/
def ofDigits (digits : List Char) : Nat :=
  digits.foldl (fun n c => 10 * n + (c.toNat - '0'.toNat)) 0

/-- A number below 2^64, in decimal digits that a plus sign may precede. -/
def readCount (text : String) : Except UsageError Nat :=
  let digits := match text.toList with
    | '+' :: rest => rest
    | cs => cs
  if digits.isEmpty || !digits.all Char.isDigit then .error .valueUnreadable
  else
    match count? (ofDigits digits) with
    | some n => .ok n
    | none => .error .valueUnreadable

/-- What is given with this value in addition. A slot takes one value. -/
def fill (g : Given) (s : Slot) (text : String) : Except UsageError Given := do
  if s.isFilled g then .error .repeated
  else
    match s with
    | path => return { g with path := some (← readPath text) }
    | format => return { g with format := some (← readFormat text) }
    | output => return { g with output := some (← readPath text) }
    | config => return { g with config := some (← readPath text) }
    | jobs => return { g with jobs := some (← readCount text) }
    | file => return { g with file := some (← readPath text) }
    | method => return { g with method := some text }

end Slot

/-! ## Options -/

/-- What an option stands for. -/
inductive Mark where
  | value (slot : Slot)
  | all
  | force
  | verbose
  | help
  | version
  deriving DecidableEq, Repr

structure OptionForm where
  /-- The name after two dashes. -/
  long : String
  /-- The letter after one dash. -/
  short : Option Char
  mark : Mark

/-- What a command line may hold. -/
structure Form where
  /-- The words that start a command. -/
  verbs : List String
  options : List OptionForm
  /-- The arguments in order; none can be left out. -/
  arguments : List Slot

namespace Form

def ofLong? (f : Form) (name : String) : Option Mark :=
  (f.options.find? fun o => o.long == name).map OptionForm.mark

def ofShort? (f : Form) (letter : Char) : Option Mark :=
  (f.options.find? fun o => o.short == some letter).map OptionForm.mark

end Form

/-- The options of all commands. -/
def sharedOptions : List OptionForm :=
  [⟨"verbose", some 'v', .verbose⟩, ⟨"help", some 'h', .help⟩]

/-! ## Commands -/

inductive Verb where
  | scan
  | check
  | init
  deriving DecidableEq, Repr

namespace Verb

def word : Verb → String
  | scan => "scan"
  | check => "check"
  | init => "init"

def ofWord? (word : String) : Option Verb := [scan, check, init].find? fun v => v.word == word

def form : Verb → Form
  | scan =>
      ⟨[],
        [⟨"format", some 'f', .value .format⟩, ⟨"output", some 'o', .value .output⟩,
          ⟨"config", none, .value .config⟩, ⟨"jobs", some 'j', .value .jobs⟩,
          ⟨"all", none, .all⟩] ++ sharedOptions,
        [.path]⟩
  | check => ⟨[], sharedOptions, [.file, .method]⟩
  | init => ⟨[], ⟨"force", some 'f', .force⟩ :: sharedOptions, []⟩

end Verb

/-- The word that asks how a command is used. -/
def helpWord : String := "help"

/-- What may stand in front of the command. -/
def rootForm : Form :=
  ⟨["scan", "check", "init", helpWord], sharedOptions ++ [⟨"version", some 'V', .version⟩], []⟩

end AccessorScan
