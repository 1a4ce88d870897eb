import AccessorScan.Log
import AccessorScan.Text.Blank

/-!
# `AccessorScan.Log.Filter` — which messages are shown

A filter is written as directives between commas. A directive is a level for all targets, the start
of a target, or the start of a target with `=` and a level. After a slash stands a text that shown
messages contain. For each target the directive with the longest start decides.

## Contents
- `Threshold`, `LogDirective`, `LogFilter`, `LogFilter.shows`.
- `LogFilter.ofText`: a filter with the parts of its text that are passed over.
- `LogFilter.ofVerbosity`: the filter for a number of requests for more messages.
-/

namespace AccessorScan

/-- The least grave level that is shown, or `none` where nothing is. -/
abbrev Threshold := Option LogLevel

namespace Threshold

/-- The threshold that lets everything through. -/
def everything : Threshold := some .trace

def admits (t : Threshold) (level : LogLevel) : Bool := t.any fun l => level.rank ≤ l.rank

/-- The threshold of that name, in letters of either case. -/
def ofWord? (word : List Char) : Option Threshold :=
  match String.ofList (word.map Char.toLower) with
  | "off" => some none
  | "error" => some (some .error)
  | "warn" => some (some .warn)
  | "info" => some (some .info)
  | "debug" => some (some .debug)
  | "trace" => some (some .trace)
  | _ => none

end Threshold

structure LogDirective where
  /-- What targets start with; `none` stands for all targets. -/
  start : Option String
  threshold : Threshold

namespace LogDirective

def concerns (d : LogDirective) (target : String) : Bool :=
  match d.start with
  | some s => s.toList.isPrefixOf target.toList
  | none => true

/-- The length of the start; the longest one decides. -/
def weight (d : LogDirective) : Nat := (d.start.map String.utf8ByteSize).getD 0

/-- The directives with `d` in the place of the one with the same start, or at the end. -/
def put (ds : List LogDirective) (d : LogDirective) : List LogDirective :=
  if ds.any fun e => e.start == d.start then ds.map fun e => if e.start == d.start then d else e
  else ds ++ [d]

/-- The directive that is written, or the part of the text that is none. -/
def ofText (text : List Char) : Except String LogDirective :=
  match text.splitOn '=' with
  | [one] =>
      match Threshold.ofWord? one with
      | some t => .ok ⟨none, t⟩
      | none => .ok ⟨some (String.ofList one), .everything⟩
  | [start, level] =>
      let level := trim level
      if level.isEmpty then .ok ⟨some (String.ofList start), .everything⟩
      else
        match Threshold.ofWord? level with
        | some t => .ok ⟨some (String.ofList start), t⟩
        | none => .error (String.ofList level)
  | _ => .error (String.ofList text)

end LogDirective

structure LogFilter where
  directives : List LogDirective
  /-- What shown messages contain. -/
  content : Option String

namespace LogFilter

/-- The directive that decides on a target: of those with the longest start the last. -/
def deciding? (f : LogFilter) (target : String) : Option LogDirective :=
  (f.directives.filter fun d => d.concerns target).foldl
    (fun best d =>
      match best with
      | some b => if b.weight ≤ d.weight then some d else some b
      | none => some d)
    none

/-- The threshold for a target. Without directives errors are shown. -/
def threshold (f : LogFilter) (target : String) : Threshold :=
  if f.directives.isEmpty then some .error
  else (f.deciding? target).bind LogDirective.threshold

/-- Whether `pattern` stands somewhere in a text. -/
def occurs (pattern : List Char) : List Char → Bool
  | [] => pattern.isEmpty
  | c :: rest => pattern.isPrefixOf (c :: rest) || occurs pattern rest

def shows (f : LogFilter) (e : LogEntry) : Bool :=
  (f.threshold e.target).admits e.level &&
    f.content.all fun text => occurs text.toList e.message.toList

/-! ## Reading -/

/-- The directives between the commas, and the parts that are none. -/
def readDirectives (text : List Char) : List LogDirective × List String :=
  ((text.splitOn ',').map trim).foldl
    (fun (ds, faults) part =>
      if part.isEmpty then (ds, faults)
      else
        match LogDirective.ofText part with
        | .ok d => (LogDirective.put ds d, faults)
        | .error fault => (ds, faults ++ [fault]))
    ([], [])

/-- What is said about a part of a text that is no part of a filter. -/
def faultMessage (fault : String) : String :=
  "warning: error parsing logger filter: invalid logging spec " ++ fault ++ ", ignoring it"

def quoted (text : String) : String := "'" ++ text ++ "'"

/-- The filter that is written, and what is said about the parts that are passed over. -/
def ofText (text : String) : LogFilter × List String :=
  match text.toList.splitOn '/' with
  | [] => (⟨[], none⟩, [])
  | [directives] =>
      let (ds, faults) := readDirectives directives
      (⟨ds, none⟩, faults.map fun t => faultMessage (quoted t))
  | [directives, content] =>
      let (ds, faults) := readDirectives directives
      (⟨ds, some (String.ofList content)⟩, faults.map fun t => faultMessage (quoted t))
  | _ => (⟨[], none⟩, [faultMessage (quoted text ++ " (too many '/'s)")])

/-- The filter for a number of requests for more messages. -/
def ofVerbosity (n : Nat) : LogFilter :=
  let level : LogLevel := match n with
    | 0 => .warn
    | 1 => .info
    | 2 => .debug
    | _ => .trace
  ⟨[⟨none, some level⟩], none⟩

end LogFilter

end AccessorScan
