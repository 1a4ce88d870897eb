import AccessorScan.Log
import AccessorScan.Text.Indent
import AccessorScan.Text.Style

/-!
# `AccessorScan.Log.Line` — messages as lines

A line has the level, padded to five characters, and the target in brackets, and the message after
them. The lines of a longer message stand four blanks to the right.

## Contents
- `LogLevel.padded`, `LogLevel.style`.
- `LogEntry.line`.
-/

namespace AccessorScan

/-- The name of the level with blanks up to five characters. -/
def LogLevel.padded (l : LogLevel) : String :=
  l.name ++ String.ofList (List.replicate (5 - l.name.length) ' ')

def LogLevel.style : LogLevel → Style
  | .error => ⟨["1", "31"]⟩
  | .warn => ⟨["33"]⟩
  | .info => ⟨["32"]⟩
  | .debug => ⟨["34"]⟩
  | .trace => ⟨["36"]⟩

namespace LogEntry

def bracketStyle : Style := ⟨["90"]⟩

/-- The message as it is shown, with the line end. -/
def line (color : Bool) (e : LogEntry) : String :=
  bracketStyle.paint color "[" ++ e.level.style.paint color e.level.padded ++
    (if e.target.isEmpty then "" else " " ++ e.target) ++
    bracketStyle.paint color "]" ++ " " ++ indentRest "    " e.message ++ "\n"

end LogEntry

end AccessorScan
