/-!
# `AccessorScan.Text.Indent` — texts of several lines inside other texts

## Contents
- `indentRest`: blanks in front of all lines but the first.
-/

namespace AccessorScan

/-- A text with `blanks` in front of all lines but the first. -/
def indentRest (blanks text : String) : String :=
  ("\n" ++ blanks).intercalate ((text.toList.splitOn '\n').map String.ofList)

end AccessorScan
