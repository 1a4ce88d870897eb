import AccessorScan.Toml.Scalar

/-!
# `AccessorScan.Toml.Reader` — reading TOML documents

Recursion is on fuel: every call that uses one unit has taken a character, so the length of the text
is enough.

## Contents
- `key?`: keys with points.
- `value?`, `items?`, `entries?`: values, with a bound on how deep they are nested.
- `line?`, `lines?`: headers and definitions, line by line.
- `Toml.parse?`: the table that a document defines.
-/

namespace AccessorScan.Toml

/-! ## Keys -/

def isBareKeyChar (c : Char) : Bool := c.isAlphanum || c == '_' || c == '-'

/-- One part of a key. -/
def keyPart? (cs : List Char) : Option (String × List Char) :=
  match cs with
  | '"' :: '"' :: '"' :: _ => none
  | '\'' :: '\'' :: '\'' :: _ => none
  | '"' :: _ => string? cs
  | '\'' :: _ => string? cs
  | _ =>
      let part := cs.takeWhile isBareKeyChar
      if part.isEmpty then none else some (String.ofList part, cs.drop part.length)

/-- A key: the parts before the last one, the last one, and what follows with its blanks skipped. -/
def key? : Nat → List Char → Option (List String × String × List Char)
  | 0, _ => none
  | fuel + 1, cs => do
      let (part, rest) ← keyPart? cs
      match skipBlanks rest with
      | '.' :: rest => do
          let (path, last, rest) ← key? fuel (skipBlanks rest)
          return (part :: path, last, rest)
      | rest => return ([], part, rest)

/-! ## Values -/

/-- How deep arrays and tables in braces may be nested. -/
def nestingLimit : Nat := 80

def isScalarEnd (c : Char) : Bool :=
  isBlank c || c == '\n' || c == '\r' || c == ',' || c == ']' || c == '#' || c == '=' ||
    c.toNat == 125

/-- A value without quotes. A date may be followed by a blank and a time. -/
def plainValue? (cs : List Char) : Option (Toml × List Char) := do
  let token := cs.takeWhile fun c => !isScalarEnd c
  let rest := cs.drop token.length
  match rest with
  | ' ' :: d :: more =>
      if (date? token).any List.isEmpty ∧ d.isDigit then
        let time := (d :: more).takeWhile fun c => !isScalarEnd c
        return (← scalar? (token ++ ' ' :: time), (d :: more).drop time.length)
      else return (← scalar? token, rest)
  | _ => return (← scalar? token, rest)

mutual

/-- A value at the front of the text, inside `depth` arrays and tables. -/
def value? : Nat → Nat → List Char → Option (Toml × List Char)
  | 0, _, _ => none
  | fuel + 1, depth, cs =>
      match cs with
      | '"' :: _ => (string? cs).map fun (s, rest) => (.string s, rest)
      | '\'' :: _ => (string? cs).map fun (s, rest) => (.string s, rest)
      | '[' :: rest =>
          if depth ≥ nestingLimit then none
          else do
            let (vs, rest) ← items? fuel (depth + 1) (← skipSpace? false rest)
            return (.array vs, rest)
      | c :: rest =>
          if c.toNat = 123 then
            if depth ≥ nestingLimit then none
            else do
              let (t, rest) ← entries? fuel (depth + 1) Table.empty (← skipSpace? false rest)
              return (t.toToml, rest)
          else plainValue? (c :: rest)
      | [] => none

/-- The items of an array up to its closing bracket; a comma may follow the last one. -/
def items? : Nat → Nat → List Char → Option (List Toml × List Char)
  | 0, _, _ => none
  | fuel + 1, depth, cs =>
      match cs with
      | ']' :: rest => some ([], rest)
      | _ => do
          let (v, rest) ← value? fuel depth cs
          match ← skipSpace? false rest with
          | ',' :: rest => do
              let (vs, rest) ← items? fuel depth (← skipSpace? false rest)
              return (v :: vs, rest)
          | ']' :: rest => return ([v], rest)
          | _ => none

/-- The entries of a table in braces up to the closing one, added to `t`; a comma may follow the
last one. -/
def entries? : Nat → Nat → Table → List Char → Option (Table × List Char)
  | 0, _, _, _ => none
  | fuel + 1, depth, t, cs =>
      match cs with
      | [] => none
      | c :: rest =>
          if c.toNat = 125 then some (t, rest)
          else do
            let (path, last, rest) ← key? cs.length cs
            let (v, rest) ← value? fuel depth (skipBlanks (← skipChar? '=' rest))
            let t ← t.defineKey path last v
            match ← skipSpace? false rest with
            | d :: rest =>
                if d = ',' then entries? fuel depth t (← skipSpace? false rest)
                else if d.toNat = 125 then some (t, rest)
                else none
            | [] => none

end

/-! ## Documents -/

/-- A document as far as it was read. -/
structure Document where
  root : Table
  /-- The path of the table that definitions go to. -/
  current : List String

/-- What a line with a header does. -/
def header? (d : Document) (cs : List Char) : Option (Document × List Char) :=
  match cs with
  | '[' :: rest => do
      let (path, last, rest) ← key? cs.length (skipBlanks rest)
      let rest ← skipChar? ']' (← skipChar? ']' rest)
      return (⟨← d.root.openItem path last, path ++ [last]⟩, rest)
  | _ => do
      let (path, last, rest) ← key? (cs.length + 1) (skipBlanks cs)
      let rest ← skipChar? ']' rest
      return (⟨← d.root.openTable path last, path ++ [last]⟩, rest)

/-- What a line with a definition does. -/
def definition? (d : Document) (cs : List Char) : Option (Document × List Char) := do
  let (path, last, rest) ← key? cs.length cs
  let (v, rest) ← value? cs.length 0 (skipBlanks (← skipChar? '=' rest))
  return (⟨← d.root.within (Table.defineKey path last v) d.current, d.current⟩, rest)

/-- One line without its blanks in front, up to its comment. -/
def line? (d : Document) (cs : List Char) : Option (Document × List Char) :=
  match cs with
  | '[' :: rest => header? d rest
  | '#' :: _ => some (d, cs)
  | _ => if cs.isEmpty || (afterLineEnd? cs).isSome then some (d, cs) else definition? d cs

/-- The lines of the rest of a document. -/
def lines? : Nat → Document → List Char → Option Document
  | 0, _, _ => none
  | fuel + 1, d, cs => do
      let (d, rest) ← line? d (skipBlanks cs)
      let rest ← skipComment? (skipBlanks rest)
      if rest.isEmpty then return d
      else lines? fuel d (← afterLineEnd? rest)

/-- The text without the byte order mark that may stand at its front. -/
def withoutByteMark (cs : List Char) : List Char :=
  match cs with
  | c :: rest => if c.toNat = 0xFEFF then rest else cs
  | [] => []

/-- The table that a document defines. -/
def parse? (text : String) : Option Toml :=
  let cs := withoutByteMark text.toList
  (lines? (cs.length + 1) ⟨Table.empty, []⟩ cs).map fun d => d.root.toToml

end AccessorScan.Toml
