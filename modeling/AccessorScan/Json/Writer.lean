import AccessorScan.Json.Basic

/-!
# `AccessorScan.Json.Writer` — JSON text

## Contents
- `Json.quoted`: a string literal with the short escapes where JSON has them and four hexadecimal
  digits for the other control characters; all else stands as it is.
- `Json.compact`: no blanks at all.
- `Json.pretty`: one item or entry per line, two blanks per level, empty containers closed at once.
-/

namespace AccessorScan
namespace Json

/-- The hexadecimal digit of a number below sixteen, in lower case. -/
def hexDigit (n : Nat) : Char :=
  if n < 10 then Char.ofNat (48 + n) else Char.ofNat (87 + n)

/-- One character inside a string literal. -/
def escape (c : Char) : List Char :=
  if c = '"' then ['\\', '"']
  else if c = '\\' then ['\\', '\\']
  else if c = '\n' then ['\\', 'n']
  else if c = '\t' then ['\\', 't']
  else if c = '\r' then ['\\', 'r']
  else if c.toNat = 8 then ['\\', 'b']
  else if c.toNat = 12 then ['\\', 'f']
  else if c.toNat < 32 then ['\\', 'u', '0', '0', hexDigit (c.toNat / 16), hexDigit (c.toNat % 16)]
  else [c]

/-- A string literal. -/
def quoted (s : String) : List Char :=
  '"' :: (s.toList.flatMap escape ++ ['"'])

/-- The text of an integer. -/
def integerText : Int → List Char
  | .ofNat n => (Nat.repr n).toList
  | .negSucc n => '-' :: (Nat.repr (n + 1)).toList

mutual

/-- The text without blanks. -/
def compactChars : Json → List Char
  | .null => ['n', 'u', 'l', 'l']
  | .bool true => ['t', 'r', 'u', 'e']
  | .bool false => ['f', 'a', 'l', 's', 'e']
  | .integer i => integerText i
  | .decimal l => l.toList
  | .string s => quoted s
  | .array items => '[' :: (compactItems items ++ [']'])
  | .object entries => '{' :: (compactEntries entries ++ ['}'])

def compactItems : List Json → List Char
  | [] => []
  | [v] => compactChars v
  | v :: rest => compactChars v ++ ',' :: compactItems rest

def compactEntries : List (String × Json) → List Char
  | [] => []
  | [(k, v)] => quoted k ++ ':' :: compactChars v
  | (k, v) :: rest => quoted k ++ ':' :: compactChars v ++ ',' :: compactEntries rest

end

/-- The text without blanks. -/
def compact (v : Json) : String := String.ofList v.compactChars

/-- A line end and the blanks that start a line at this level. -/
def lineStart (level : Nat) : List Char := '\n' :: List.replicate (2 * level) ' '

mutual

/-- The text with one item or entry per line; `level` is that of the line on which it starts. -/
def prettyChars (level : Nat) : Json → List Char
  | .null => ['n', 'u', 'l', 'l']
  | .bool true => ['t', 'r', 'u', 'e']
  | .bool false => ['f', 'a', 'l', 's', 'e']
  | .integer i => integerText i
  | .decimal l => l.toList
  | .string s => quoted s
  | .array [] => ['[', ']']
  | .array (v :: rest) =>
      '[' :: lineStart (level + 1) ++ prettyChars (level + 1) v ++ prettyItems level rest
  | .object [] => ['{', '}']
  | .object ((k, v) :: rest) =>
      '{' :: lineStart (level + 1) ++ quoted k ++ ':' :: ' ' :: prettyChars (level + 1) v
        ++ prettyEntries level rest

/-- The items after the first one, and the closing bracket. -/
def prettyItems (level : Nat) : List Json → List Char
  | [] => lineStart level ++ [']']
  | v :: rest =>
      ',' :: lineStart (level + 1) ++ prettyChars (level + 1) v ++ prettyItems level rest

/-- The entries after the first one, and the closing brace. -/
def prettyEntries (level : Nat) : List (String × Json) → List Char
  | [] => lineStart level ++ ['}']
  | (k, v) :: rest =>
      ',' :: lineStart (level + 1) ++ quoted k ++ ':' :: ' ' :: prettyChars (level + 1) v
        ++ prettyEntries level rest

end

/-- The text with one item or entry per line. -/
def pretty (v : Json) : String := String.ofList (v.prettyChars 0)

end Json
end AccessorScan
