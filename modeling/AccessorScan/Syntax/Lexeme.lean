import AccessorScan.Text.Identifier

/-!
# `AccessorScan.Syntax.Lexeme` — the lexical form of a source

A source is cut into lexemes with what stands before them: blanks and comments. Words are not told
apart from keywords here, since a keyword is one only where the grammar has a place for it. A `>` is
always a lexeme of its own, so that it can close type arguments; longer operators that start with it
are put together by the grammar.

## Contents
- `LexemeKind`, `Aside`, `Lexeme`.
- `number`, `mark`, `firstLexeme`: how many characters a lexeme takes, one function per lexical form.
- `lexemes`: the lexemes of a source, with the line on which each one starts.
-/

namespace AccessorScan

inductive LexemeKind where
  /-- An identifier or a keyword. -/
  | word
  /-- A number or a character literal, with the name of its syntactic kind. -/
  | literal (kind : String)
  /-- A whole string literal. -/
  | string
  /-- A string literal up to its first embedded expression. -/
  | stringHead
  /-- The part of a string literal between two embedded expressions. -/
  | stringMiddle
  /-- The part of a string literal after its last embedded expression. -/
  | stringTail
  /-- An operator or a separator. -/
  | mark
  /-- A character that starts no lexeme. -/
  | stray
  /-- A mark that the source lacks and a repair supplied. -/
  | supplied
  /-- The end of the source. -/
  | finish
  deriving DecidableEq, Repr

/-- Text that stands between lexemes and belongs to no construct: a comment, or a lexeme that a
repair passed over. With it go the blanks before it. -/
structure Aside where
  blank : String
  kind : String
  text : String
  line : Nat
  deriving DecidableEq, Repr

structure Lexeme where
  kind : LexemeKind
  text : String
  /-- The asides since the lexeme before. -/
  asides : List Aside
  /-- The blanks right before the lexeme, after the asides. -/
  blank : String
  /-- The line on which it starts, counted from 1. -/
  line : Nat
  /-- How many characters of the source stand before it. -/
  offset : Nat
  deriving DecidableEq, Repr

/-- Nothing at all stands between the lexeme before and this one. -/
def Lexeme.isGlued (l : Lexeme) : Bool := l.asides.isEmpty && l.blank.isEmpty

/-- Blanks between lexemes: tab, the line ends, form feed and space. -/
def isBlankChar (c : Char) : Bool := c == ' ' || (9 ≤ c.toNat && c.toNat ≤ 13)

/-! ## Extents -/

namespace Extent

/-- How many characters from the front satisfy `p`. -/
def run (p : Char → Bool) (cs : List Char) : Nat := (cs.takeWhile p).length

/-- The length of a `/* … */` comment after its opening, its end included. -/
def blockComment? : List Char → Option Nat
  | [] => none
  | '*' :: '/' :: _ => some 2
  | _ :: rest => (blockComment? rest).map (· + 1)

def isHexDigit (c : Char) : Bool :=
  c.isDigit || ('a' ≤ c && c ≤ 'f') || ('A' ≤ c && c ≤ 'F')

/-- What follows a backslash in a string literal is an escape: after `x` stand two hexadecimal
digits, after `u` four of them or some in braces, and every other character may stand alone. -/
def isEscape : List Char → Bool
  | 'x' :: rest => (rest.take 2).length == 2 && (rest.take 2).all isHexDigit
  | 'u' :: '{' :: rest =>
      let digits := rest.takeWhile isHexDigit
      !digits.isEmpty && (rest.drop digits.length).head? == some '}'
  | 'u' :: rest => (rest.take 4).length == 4 && (rest.take 4).all isHexDigit
  | _ => true

/-- Where a part of a string literal ends, and whether an embedded expression follows. -/
def stringPart? : List Char → Option (Nat × Bool)
  | [] => none
  | '"' :: _ => some (1, false)
  | '\\' :: '{' :: _ => some (2, true)
  | '\\' :: c :: rest =>
      if isEscape (c :: rest) then (stringPart? rest).map fun (n, b) => (n + 2, b) else none
  | _ :: rest => (stringPart? rest).map fun (n, b) => (n + 1, b)

/-- The same for a text block, which ends at three quotes and where any character may be escaped. -/
def textBlockPart? : List Char → Option (Nat × Bool)
  | [] => none
  | '"' :: '"' :: '"' :: _ => some (3, false)
  | '\\' :: '{' :: _ => some (2, true)
  | '\\' :: _ :: rest => (textBlockPart? rest).map fun (n, b) => (n + 2, b)
  | _ :: rest => (textBlockPart? rest).map fun (n, b) => (n + 1, b)

/-- The length of the rest of a character literal whose quote has been read; `none` for an empty or
an open one. -/
def characterRest? (any : Bool) : List Char → Option Nat
  | [] => none
  | '\'' :: _ => if any then some 1 else none
  | '\\' :: _ :: rest => (characterRest? true rest).map (· + 2)
  | c :: rest => if c = '\n' ∨ c = '\\' then none else (characterRest? true rest).map (· + 1)

/-- Runs of digits with single underscores between them: the length, zero if there is no digit. -/
def grouped (digit : Char → Bool) : List Char → Nat
  | [] => 0
  | [c] => if digit c then 1 else 0
  | [c, d] => if digit c then (if digit d then 2 else 1) else 0
  | c :: d :: e :: rest =>
      if digit c then
        if d = '_' then (if digit e then grouped digit (e :: rest) + 2 else 1)
        else grouped digit (d :: e :: rest) + 1
      else 0

def isOctalDigit (c : Char) : Bool := '0' ≤ c && c ≤ '7'

def isBinaryDigit (c : Char) : Bool := c == '0' || c == '1'

def oneOf (options : String) (c : Char) : Bool := options.toList.contains c

/-- One optional character out of `options`. -/
def optional (options : String) : List Char → Nat
  | c :: _ => if oneOf options c then 1 else 0
  | [] => 0

/-- An exponent: its letter, a sign if any, and digits; zero if there is none. -/
def exponent (letters : String) (cs : List Char) : Nat :=
  match cs with
  | c :: rest =>
      if oneOf letters c then
        let sign := optional "+-" rest
        let digits := grouped Char.isDigit (rest.drop sign)
        if digits = 0 then 0 else 1 + sign + digits
      else 0
  | [] => 0

/-- A whole number without needless zeros. After the first digit one underscore may stand, and
between further runs of digits any number. -/
def decimalWhole : List Char → Nat
  | '0' :: _ => 1
  | c :: rest =>
      if c.isDigit then
        let first :=
          if (rest.head? == some '_') && ((rest.drop 1).head?.any Char.isDigit) then 1 else 0
        let body := rest.drop first
        if body.head?.any Char.isDigit then 1 + first + runs body else 1
      else 0
  | [] => 0
where
  /-- Runs of digits with underscores between them. -/
  runs : List Char → Nat
    | [] => 0
    | c :: rest =>
        if c.isDigit then runs rest + 1
        else if c = '_' ∧ ((rest.dropWhile (· == '_')).head?.any Char.isDigit) then runs rest + 1
        else 0

/-- The longer of two readings; the first one if they are equally long. -/
def longer (a b : Nat × String) : Nat × String := if b.1 > a.1 then b else a

/-- A number with a point or an exponent or a suffix that makes it a floating point number. -/
def decimalFloat (cs : List Char) : Nat :=
  let whole := grouped Char.isDigit cs
  let pointed :=
    if whole > 0 ∧ (cs.drop whole).head? = some '.' then
      let fraction := grouped Char.isDigit (cs.drop (whole + 1))
      let n := whole + 1 + fraction
      let n := n + exponent "eE" (cs.drop n)
      n + optional "fFdD" (cs.drop n)
    else if whole = 0 ∧ cs.head? = some '.' then
      let fraction := grouped Char.isDigit (cs.drop 1)
      if fraction = 0 then 0
      else
        let n := 1 + fraction
        let n := n + exponent "eE" (cs.drop n)
        n + optional "fFdD" (cs.drop n)
    else 0
  let plain := decimalWhole cs
  let scaled :=
    if plain = 0 then 0
    else
      let power := exponent "eEpP" (cs.drop plain)
      if power > 0 then
        let n := plain + power
        n + optional "fFdD" (cs.drop n)
      else
        let suffix := optional "fFdD" (cs.drop plain)
        if suffix > 0 then plain + 1 else 0
  max pointed scaled

/-- A hexadecimal floating point number. -/
def hexFloat (cs : List Char) : Nat :=
  match cs with
  | '0' :: x :: rest =>
      if x = 'x' ∨ x = 'X' then
        let whole := grouped isHexDigit rest
        let point := (rest.drop whole).head? = some '.'
        let fraction := if point then grouped isHexDigit (rest.drop (whole + 1)) else 0
        let n := whole + (if point then 1 + fraction else 0)
        if whole = 0 ∧ fraction = 0 then 0
        else
          let power := exponent "eEpP" (rest.drop n)
          let suffix := if power > 0 then optional "fFdD" (rest.drop (n + power)) else 0
          2 + n + power + suffix
      else 0
  | _ => 0

/-- A prefix, grouped digits and a suffix for the long type; zero if a part is missing. -/
def based (letters : String) (digit : Char → Bool) (cs : List Char) : Nat :=
  match cs with
  | '0' :: x :: rest =>
      if oneOf letters x then
        let digits := grouped digit rest
        if digits = 0 then 0 else 2 + digits + optional "lL" (rest.drop digits)
      else 0
  | _ => 0

/-- An octal number, with or without a letter after its zero. -/
def octal (cs : List Char) : Nat :=
  let lettered := based "oO" isOctalDigit cs
  match cs with
  | '0' :: rest =>
      let digits := grouped isOctalDigit rest
      let plain := if digits = 0 then 0 else 1 + digits + optional "lL" (rest.drop digits)
      max lettered plain
  | _ => lettered

def decimal (cs : List Char) : Nat :=
  let whole := decimalWhole cs
  if whole = 0 then 0 else whole + optional "lL" (cs.drop whole)

/-- The longest number at the front and its kind; the length is zero if there is none. Of readings
of equal length the one named first is taken. -/
def number (cs : List Char) : Nat × String :=
  let readings :=
    [(decimal cs, "decimal_integer_literal"), (based "xX" isHexDigit cs, "hex_integer_literal"),
      (octal cs, "octal_integer_literal"), (based "bB" isBinaryDigit cs, "binary_integer_literal"),
      (decimalFloat cs, "decimal_floating_point_literal"),
      (hexFloat cs, "hex_floating_point_literal")]
  readings.foldl longer (0, "")

/-- The operators and separators of more than one character, longest first. Those that start with
`>` are missing. -/
def longMarks : List String :=
  ["@interface", "<<=", "...", "->", "::", "++", "--", "&&", "||", "==", "!=", "<=", "+=", "-=",
    "*=", "/=", "%=", "&=", "|=", "^=", "<<"]

/-- The operators and separators of one character. -/
def shortMarks : String := "+-*/%&|^~!?:;,.=<>(){}[]@"

/-- The length of the operator or separator at the front; zero if there is none. -/
def mark (cs : List Char) : Nat :=
  match longMarks.find? fun m => m.toList.isPrefixOf cs with
  | some m => m.length
  | none => optional shortMarks cs

end Extent

/-! ## Cutting -/

/-- A string literal that is interrupted by an expression: whether it is a text block, and how many
braces of the expression are open. -/
structure OpenString where
  isBlock : Bool
  depth : Nat

/-- The first lexeme of a text that starts with neither blank nor comment: its kind, its length and
the interrupted literals after it. -/
def firstLexeme (opened : List OpenString) (cs : List Char) :
    LexemeKind × Nat × List OpenString :=
  match cs with
  | [] => (.stray, 0, opened)
  | c :: rest =>
      if isIdentifierStart c then (.word, 1 + Extent.run isIdentifierPart rest, opened)
      else if c = '"' then
        match rest with
        | '"' :: '"' :: body =>
            match Extent.textBlockPart? body with
            | some (n, false) => (.string, 3 + n, opened)
            | some (n, true) => (.stringHead, 3 + n, ⟨true, 0⟩ :: opened)
            | none => (.stray, 1, opened)
        | _ =>
            match Extent.stringPart? rest with
            | some (n, false) => (.string, 1 + n, opened)
            | some (n, true) => (.stringHead, 1 + n, ⟨false, 0⟩ :: opened)
            | none => (.stray, 1, opened)
      else if c = '\'' then
        match Extent.characterRest? false rest with
        | some n => (.literal "character_literal", 1 + n, opened)
        | none => (.stray, 1, opened)
      else
        match opened, c with
        | ⟨block, 0⟩ :: outer, '}' =>
            match if block then Extent.textBlockPart? rest else Extent.stringPart? rest with
            | some (n, false) => (.stringTail, 1 + n, outer)
            | some (n, true) => (.stringMiddle, 1 + n, opened)
            | none => (.stray, 1, outer)
        | ⟨block, d + 1⟩ :: outer, '}' => (.mark, 1, ⟨block, d⟩ :: outer)
        | ⟨block, d⟩ :: outer, '{' => (.mark, 1, ⟨block, d + 1⟩ :: outer)
        | _, _ =>
            let (n, kind) := Extent.number cs
            if n > 0 then (.literal kind, n, opened)
            else
              let m := Extent.mark cs
              if m > 0 then (.mark, m, opened) else (.stray, 1, opened)

/-- How many lines a text goes on. -/
def lineBreaks (cs : List Char) : Nat := cs.count '\n'

/-- The kind and length of the comment at the front, if there is one. -/
def comment? : List Char → Option (String × Nat)
  | '/' :: '/' :: rest => some ("line_comment", 2 + Extent.run (· != '\n') rest)
  | '/' :: '*' :: rest => (Extent.blockComment? rest).map fun n => ("block_comment", 2 + n)
  | _ => none

/-- The state of the cutter between two lexemes. -/
structure Cutter where
  line : Nat
  /-- How many characters have been read. -/
  offset : Nat
  /-- The comments since the last lexeme, the last one first. -/
  comments : List Aside
  opened : List OpenString

/-- The lexemes of the rest of a source, closed by its end. One unit of fuel is spent on each
comment and each lexeme. -/
def cut : Nat → Cutter → List Char → List Lexeme
  | 0, s, cs => [⟨.finish, "", s.comments.reverse, String.ofList cs, s.line, s.offset⟩]
  | fuel + 1, s, cs =>
      let blank := cs.takeWhile isBlankChar
      let rest := cs.dropWhile isBlankChar
      let line := s.line + lineBreaks blank
      let offset := s.offset + blank.length
      if rest.isEmpty then [⟨.finish, "", s.comments.reverse, String.ofList blank, line, offset⟩]
      else
        match comment? rest with
        | some (kind, n) =>
            let text := rest.take n
            let c : Aside := ⟨String.ofList blank, kind, String.ofList text, line⟩
            cut fuel ⟨line + lineBreaks text, offset + n, c :: s.comments, s.opened⟩ (rest.drop n)
        | none =>
            let (kind, n, opened) := firstLexeme s.opened rest
            let text := rest.take n
            ⟨kind, String.ofList text, s.comments.reverse, String.ofList blank, line, offset⟩ ::
              cut fuel ⟨line + lineBreaks text, offset + n, [], opened⟩ (rest.drop n)

/-- A source without the byte order mark that may stand at its front. -/
def withoutOrderMark (cs : List Char) : List Char :=
  match cs with
  | c :: rest => if c.toNat = 0xFEFF then rest else cs
  | [] => []

/-- A source cut up. The last lexeme is its end. -/
def lexemes (source : String) : List Lexeme :=
  let cs := withoutOrderMark source.toList
  cut (cs.length + 1) ⟨1, 0, [], []⟩ cs

end AccessorScan
