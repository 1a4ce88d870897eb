import AccessorScan.Command.Basic
import AccessorScan.Command.Form

/-!
# `AccessorScan.Command.Line` — reading command lines

The words are read from the left. A value is checked when the next option or argument is reached, or
at the end, so a fault in a later word can be told first.

## Contents
- `Reading`: what has been read, and `Reading.word`: one word more.
- `Form.read`: the words up to a command or to the end.
- `CommandLine`, `CommandLine.ofWords`.
-/

namespace AccessorScan

/-- How far a command line has been read. -/
structure Reading where
  given : Given
  /-- The slot that was met last, with its value if that has been read. -/
  pending : Option (Slot × Option String)
  /-- The arguments that may still come. -/
  arguments : List Slot
  /-- All words are arguments from here on. -/
  onlyArguments : Bool

namespace Reading

def start (f : Form) : Reading := ⟨.nothing, none, f.arguments, false⟩

/-- An option still lacks its value. -/
def awaitsValue (r : Reading) : Bool :=
  match r.pending with
  | some (_, none) => true
  | _ => false

/-- The pending value is taken over. -/
def settle (r : Reading) : Except UsageError Reading :=
  match r.pending with
  | none => .ok r
  | some (_, none) => .error .valueInvalid
  | some (slot, some text) => do
      return { r with given := ← slot.fill r.given text, pending := none }

/-- A flag is set that may be set once. -/
def once (r : Reading) (isSet : Bool) (g : Given) : Except UsageError Reading :=
  if isSet then .error .repeated else .ok { r with given := g }

/-- An option is met, with the value that is attached to it. -/
def option (r : Reading) (m : Mark) (attached : Option String) : Except UsageError Reading :=
  match m, attached with
  | .value slot, some text => do
      let r ← r.settle
      return { r with given := ← slot.fill r.given text }
  | .value slot, none => do
      let r ← r.settle
      return { r with pending := some (slot, none) }
  | _, some _ => .error .valueUnwanted
  | .all, none => do
      let r ← r.settle
      r.once r.given.all { r.given with all := true }
  | .force, none => do
      let r ← r.settle
      r.once r.given.force { r.given with force := true }
  | .verbose, none => do
      let r ← r.settle
      let count := min 255 (r.given.verbosity.getD 0 + 1)
      return { r with given := { r.given with verbosity := some count } }
  | .help, none => do
      let _ ← r.settle
      .error .helpAsked
  | .version, none => do
      let _ ← r.settle
      .error .versionAsked

/-- What follows a letter that takes a value is the value, without an equals sign in front. -/
def attached (rest : List Char) : Option String :=
  match rest with
  | [] => none
  | '=' :: text => some (String.ofList text)
  | text => some (String.ofList text)

/-- The letters after one dash. -/
def letters (f : Form) (r : Reading) : List Char → Except UsageError Reading
  | [] => .ok r
  | c :: rest =>
      match f.ofShort? c with
      | none => .error .argumentUnknown
      | some (.value slot) => r.option (.value slot) (attached rest)
      | some m => do letters f (← r.option m none) rest

/-- The name after two dashes, with its value after an equals sign. -/
def name (f : Form) (r : Reading) (text : List Char) : Except UsageError Reading :=
  let long := text.takeWhile (· != '=')
  let value := match text.dropWhile (· != '=') with
    | [] => none
    | _ :: rest => some (String.ofList rest)
  match f.ofLong? (String.ofList long) with
  | none => .error .argumentUnknown
  | some m => r.option m value

/-- A word that is an argument. -/
def argument (f : Form) (r : Reading) (text : String) : Except UsageError Reading :=
  match r.arguments with
  | slot :: rest => do
      let r ← r.settle
      return { r with pending := some (slot, some text), arguments := rest }
  | [] =>
      if f.verbs.isEmpty || (r.onlyArguments && f.verbs.contains text) then .error .argumentUnknown
      else .error .commandUnknown

/-- A word that is no option. -/
def plain (f : Form) (r : Reading) (text : String) : Except UsageError Reading :=
  match r.pending with
  | some (slot, none) => .ok { r with pending := some (slot, some text) }
  | _ => r.argument f text

def word (f : Form) (r : Reading) (text : String) : Except UsageError Reading :=
  if r.onlyArguments then r.argument f text
  else
    match text.toList with
    | ['-', '-'] => .ok { r with onlyArguments := true }
    | '-' :: '-' :: rest => r.name f rest
    | '-' :: c :: rest => r.letters f (c :: rest)
    | _ => r.plain f text

end Reading

/-- What the words up to a command give, with the command and the words after it. -/
def Form.read (f : Form) (r : Reading) : List String → Except UsageError (Reading × List String)
  | [] => do return (← r.settle, [])
  | w :: ws =>
      if f.verbs.contains w && !r.onlyArguments && !r.awaitsValue then do
        return (← r.settle, w :: ws)
      else do
        f.read (← r.word f w) ws

/-! ## Commands -/

inductive Command where
  | scan (command : ScanCommand)
  | check (file : FilePath) (method : String)
  | init (force : Bool)
  deriving DecidableEq, Repr

structure CommandLine where
  /-- How often more messages were asked for, counted up to 255. -/
  verbosity : Nat
  command : Command
  deriving DecidableEq, Repr

namespace CommandLine

/-- A value that has to be given. -/
def needed {α : Type} : Option α → Except UsageError α
  | some a => .ok a
  | none => .error .argumentMissing

/-- What is given, with the configuration that the environment names where the words name none. -/
def withConfigured (configured : Option String) (g : Given) : Except UsageError Given :=
  match g.config, configured with
  | none, some text => Slot.fill g .config text
  | _, _ => .ok g

/-- The command that is asked for by what is given after its word. -/
def finish (configured : Option String) (v : Verb) (g : Given) : Except UsageError Command :=
  match v with
  | .scan => do
      let g ← withConfigured configured g
      return .scan ⟨← needed g.path, g.format, g.output, g.config, g.jobs, g.all⟩
  | .check => do return .check (← needed g.file) (← needed g.method)
  | .init => .ok (.init g.force)

/-- The answer to a request for help on a command. -/
def helpOn : List String → UsageError
  | [] => .helpAsked
  | [w] => if rootForm.verbs.contains w then .helpAsked else .commandUnknown
  | _ => .commandUnknown

/-- The command line that these words write. `configured` is the configuration file that the
environment names. Messages asked for after the command count in place of those asked for before it.
-/
def ofWords (configured : Option String) (words : List String) : Except UsageError CommandLine := do
  match ← rootForm.read (.start rootForm) words with
  | (r, []) =>
      if r.given.verbosity.isSome then .error .commandMissing else .error .nothingGiven
  | (r, w :: ws) =>
      match Verb.ofWord? w with
      | none => .error (helpOn ws)
      | some v => do
          let (s, _) ← v.form.read (.start v.form) ws
          let command ← finish configured v s.given
          return ⟨(s.given.verbosity.orElse fun _ => r.given.verbosity).getD 0, command⟩

end CommandLine

end AccessorScan
