import AccessorScan.Files.IgnoreGlob
import AccessorScan.Files.System
import AccessorScan.Text.Blank

/-!
# `AccessorScan.Files.IgnoreRules` — ignore files

An ignore file holds one pattern per line. A pattern without a slash inside applies at any depth,
any other one to the whole path from the directory of the file. The last line that matches decides.

## Contents
- `IgnoreRule`, `IgnoreRule.ofLine`.
- `IgnoreDecision`, `decideByRules`: what a list of rules says about a path.
- `IgnoreFile`: the rules of a file and the faults in its lines.
-/

namespace AccessorScan

structure IgnoreRule where
  tokens : List IgnoreToken
  /-- What matches is kept although an earlier line ignores it. -/
  keeps : Bool
  /-- Only directories match. -/
  onlyDirectories : Bool

/-- Whether `cs` ends with `ending`. -/
def endsWith (ending cs : List Char) : Bool := ending.reverse.isPrefixOf cs.reverse

namespace IgnoreRule

/-- The line without the marks in front: whether it keeps what matches, whether it is tied to the
directory of the file, and the rest. A backslash takes the special meaning of the mark after it. -/
def splitMarks (line : List Char) : Bool × Bool × List Char :=
  match line with
  | '\\' :: '!' :: rest => (false, false, '!' :: rest)
  | '\\' :: '#' :: rest => (false, false, '#' :: rest)
  | _ =>
      let keeps := line.head? = some '!'
      let line := if keeps then line.drop 1 else line
      let tied := line.head? = some '/'
      (keeps, tied, if tied then line.drop 1 else line)

/-- The line without a slash at its end, and whether there was one. -/
def splitSlash (line : List Char) : Bool × List Char :=
  if line.getLast? = some '/' then
    let rest := line.dropLast
    (true, if rest.getLast? = some '\\' then rest.dropLast else rest)
  else (false, line)

/-- The pattern for whole paths that a pattern of an ignore file stands for. -/
def wholePattern (tied : Bool) (pattern : List Char) : List Char :=
  let anywhere := !tied && !pattern.contains '/' && pattern != ['*', '*']
  let pattern := if anywhere then ['*', '*', '/'] ++ pattern else pattern
  if endsWith ['/', '*', '*'] pattern then pattern ++ ['/', '*'] else pattern

/-- The line as it counts: without white space at its end, unless a backslash protects a blank. -/
def significant (line : List Char) : List Char :=
  if endsWith ['\\', ' '] line then line else trimEnd line

/-- The rule on a line; none for an empty line and a comment. -/
def ofLine (line : List Char) : Except IgnoreGlobFault (Option IgnoreRule) :=
  if line.head? = some '#' then .ok none
  else
    let line := significant line
    if line.isEmpty then .ok none
    else do
      let (keeps, tied, rest) := splitMarks line
      let (onlyDirectories, pattern) := splitSlash rest
      let tokens ← IgnoreGlob.parse (String.ofList (wholePattern tied pattern))
      return some ⟨tokens, keeps, onlyDirectories⟩

def fits (r : IgnoreRule) (path : String) (isDirectory : Bool) : Bool :=
  (isDirectory || !r.onlyDirectories) && IgnoreGlob.fits r.tokens path

end IgnoreRule

/-! ## Decisions -/

inductive IgnoreDecision where
  | ignored
  | kept
  deriving DecidableEq, Repr

/-- What the rules say about a path as seen from their directory; the last one that matches decides.
-/
def decideByRules (rules : List IgnoreRule) (path : String) (isDirectory : Bool) :
    Option IgnoreDecision :=
  (rules.reverse.find? fun r => r.fits path isDirectory).map fun r =>
    if r.keeps then .kept else .ignored

/-! ## Files -/

inductive IgnoreFault where
  | pattern (line : Nat) (text : String) (fault : IgnoreGlobFault)
  /-- A line that is no text; what follows it does not count. -/
  | invalidText (line : Nat)

def IgnoreFault.message : IgnoreFault → String
  | pattern line text fault =>
      "line " ++ Nat.repr line ++ ": error parsing glob '" ++ text ++ "': " ++ fault.message
  | invalidText line => "line " ++ Nat.repr line ++ ": " ++ IoError.invalidText.message

structure IgnoreFile where
  rules : List IgnoreRule
  faults : List IgnoreFault

namespace IgnoreFile

def empty : IgnoreFile := ⟨[], []⟩

/-- The lines of some bytes, without their line ends. -/
def splitLines (bytes : List UInt8) : List (List UInt8) :=
  let lines := bytes.splitOn 10
  if lines.getLast? = some [] then lines.dropLast else lines

/-- The text of a line; a byte order mark may stand before the first one. -/
def lineText? (number : Nat) (bytes : List UInt8) : Option (List Char) :=
  (String.fromUTF8? ⟨bytes.toArray⟩).map fun s =>
    let cs := s.toList
    let cs := if cs.getLast? = some '\r' then cs.dropLast else cs
    if number = 1 then cs.dropWhile fun c => c.toNat == 0xFEFF else cs

/-- The rules and faults of the lines from the one with this number on. -/
def ofLines (number : Nat) : List (List UInt8) → IgnoreFile
  | [] => empty
  | bytes :: rest =>
      match lineText? number bytes with
      | none => ⟨[], [.invalidText number]⟩
      | some line =>
          let others := ofLines (number + 1) rest
          match IgnoreRule.ofLine line with
          | .ok (some rule) => ⟨rule :: others.rules, others.faults⟩
          | .ok none => others
          | .error fault =>
              let text := String.ofList (IgnoreRule.significant line)
              ⟨others.rules, .pattern number text fault :: others.faults⟩

def ofBytes (bytes : ByteArray) : IgnoreFile := ofLines 1 (splitLines bytes.data.toList)

/-- The faults that are told. One that is only about a line that is no text is not. -/
def toldFaults (f : IgnoreFile) : List IgnoreFault :=
  match f.faults with
  | [.invalidText _] => []
  | faults => faults

end IgnoreFile

end AccessorScan
