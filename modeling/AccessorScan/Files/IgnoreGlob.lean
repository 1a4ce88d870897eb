/-!
# `AccessorScan.Files.IgnoreGlob` — the patterns of ignore files

These patterns work on the bytes of a path. `?` and `*` stop at slashes, `**` as a component of its
own does not, `[…]` takes any one byte in a set, braces hold alternatives and a backslash takes what
follows as it is. A bracket that is never closed stands for itself.

## Contents
- `IgnoreGlobFault` with its message.
- `IgnoreToken` and `IgnoreGlob.parse`.
- `IgnoreToken.rests`: what a token can leave of a text; `IgnoreGlob.fits`.
-/

namespace AccessorScan

inductive IgnoreGlobFault where
  /-- The first character of a range comes after the last. -/
  | range (first last : Char)
  | unopened
  | unclosed
  /-- A backslash at the end. -/
  | danglingEscape
  deriving DecidableEq, Repr

def IgnoreGlobFault.message : IgnoreGlobFault → String
  | range first last =>
      "invalid range; '" ++ first.toString ++ "' > '" ++ last.toString ++ "'"
  | unopened =>
      "unopened alternate group; missing '\x7b' (maybe escape '\x7d' with '[\x7d]'?)"
  | unclosed =>
      "unclosed alternate group; missing '\x7d' (maybe escape '\x7b' with '[\x7b]'?)"
  | danglingEscape => "dangling '\\'"

inductive IgnoreToken where
  | exact (c : Char)
  /-- One byte that is no slash. -/
  | anyByte
  /-- Any bytes but slashes. -/
  | anyText
  /-- Any directories in front. -/
  | leading
  /-- Anything below a directory. -/
  | trailing
  /-- A slash, or any directories between two slashes. -/
  | between
  | set (negated : Bool) (ranges : List (Char × Char))
  | choice (branches : List (List IgnoreToken))

/-! ## Reading -/

namespace IgnoreGlob

/-- An alternative that is being read inside braces: what stands before the braces and the
alternatives already read. -/
structure OpenChoice where
  outer : List IgnoreToken
  finished : List (List IgnoreToken)

/-- A pattern as far as it was read. -/
structure Progress where
  tokens : List IgnoreToken
  opened : List OpenChoice
  /-- A bracket without an end was found, so brackets stand for themselves. -/
  plainBrackets : Bool

namespace Progress

def start : Progress := ⟨[], [], false⟩

def push (p : Progress) (t : IgnoreToken) : Progress := { p with tokens := p.tokens ++ [t] }

end Progress

/-- A set after its opening bracket: the ranges and what follows the closing bracket. `none` stands
for a set without an end. `first` tells that nothing has been read, `pending` that a hyphen waits
for the last character of a range. Ranges are held in reverse. -/
def readSet (first pending : Bool) (ranges : List (Char × Char)) :
    List Char → Except IgnoreGlobFault (Option (List (Char × Char) × List Char))
  | [] => .ok none
  | c :: rest =>
      if c = ']' ∧ !first then
        .ok (some ((if pending then ('-', '-') :: ranges else ranges).reverse, rest))
      else if c = '-' ∧ !first ∧ !pending then readSet false true ranges rest
      else
        match pending, ranges with
        | true, (low, _) :: others =>
            if c < low then .error (.range low c)
            else readSet false false ((low, c) :: others) rest
        | _, _ => readSet false false ((c, c) :: ranges) rest

/-- What two stars stand for; `rest` follows them and `previous` stands before them. Also gives what
is left, with a slash that belongs to the stars taken away. -/
def readStars (p : Progress) (previous : Option Char) (rest : List Char) :
    Progress × List Char × Char :=
  let plain := ((p.push .anyText).push .anyText, rest, '*')
  let inside := !p.opened.isEmpty
  if p.tokens.isEmpty then
    match rest with
    | [] => (p.push .leading, [], '*')
    | '/' :: after => (p.push .leading, after, '/')
    | _ => plain
  else if previous ≠ some '/' ∧ (!inside ∨ (previous ≠ some ',' ∧ previous ≠ some (Char.ofNat 123)))
  then plain
  else
    let replace (t : IgnoreToken) : Progress :=
      match p.tokens.getLast? with
      | some .leading => p
      | some .trailing => p
      | _ => { p with tokens := p.tokens.dropLast ++ [t] }
    match rest with
    | [] => (replace .trailing, [], '*')
    | '/' :: after => (replace .between, after, '/')
    | c :: _ =>
        if inside ∧ (c = ',' ∨ c.toNat = 125) then (replace .trailing, rest, '*') else plain

/-- One step: what is read after the character `previous`, what is left, and the last character
taken. -/
def readStep (p : Progress) (previous : Option Char) (c : Char) (rest : List Char) :
    Except IgnoreGlobFault (Progress × List Char × Char) :=
  if c = '?' then .ok (p.push .anyByte, rest, c)
  else if c = '*' then
    match rest with
    | '*' :: after => .ok (readStars p previous after)
    | _ => .ok (p.push .anyText, rest, c)
  else if c = '[' ∧ !p.plainBrackets then
    let negated := rest.head? = some '!' ∨ rest.head? = some '^'
    match readSet true false [] (if negated then rest.drop 1 else rest) with
    | .error e => .error e
    | .ok (some (ranges, after)) => .ok (p.push (.set negated ranges), after, ']')
    | .ok none => .ok ({ p.push (.exact '[') with plainBrackets := true }, rest, c)
  else if c.toNat = 123 then .ok (⟨[], ⟨p.tokens, []⟩ :: p.opened, p.plainBrackets⟩, rest, c)
  else if c.toNat = 125 then
    match p.opened with
    | [] => .error .unopened
    | o :: opened =>
        let choice := IgnoreToken.choice (o.finished ++ [p.tokens])
        .ok (⟨o.outer ++ [choice], opened, p.plainBrackets⟩, rest, c)
  else if c = ',' then
    match p.opened with
    | [] => .ok (p.push (.exact c), rest, c)
    | o :: opened =>
        .ok (⟨[], ⟨o.outer, o.finished ++ [p.tokens]⟩ :: opened, p.plainBrackets⟩, rest, c)
  else if c = '\\' then
    match rest with
    | [] => .error .danglingEscape
    | d :: after => .ok (p.push (.exact d), after, d)
  else .ok (p.push (.exact c), rest, c)

/-- The rest of a pattern. Every step takes a character, so the length of the pattern is fuel
enough. -/
def readAll : Nat → Progress → Option Char → List Char → Except IgnoreGlobFault (List IgnoreToken)
  | fuel + 1, p, previous, c :: rest => do
      let (p, rest, last) ← readStep p previous c rest
      readAll fuel p (some last) rest
  | _, p, _, _ => if p.opened.isEmpty then .ok p.tokens else .error .unclosed

/-- The tokens of a pattern. -/
def parse (text : String) : Except IgnoreGlobFault (List IgnoreToken) :=
  readAll text.length Progress.start none text.toList

end IgnoreGlob

/-! ## Matching -/

def bytesOf (s : String) : List UInt8 := s.toUTF8.data.toList

def slash : UInt8 := 47

/-- The text without any of its first bytes. -/
def suffixes : List UInt8 → List (List UInt8)
  | [] => [[]]
  | b :: rest => (b :: rest) :: suffixes rest

/-- What follows each slash of a text. -/
def afterSlashes : List UInt8 → List (List UInt8)
  | [] => []
  | b :: rest => if b = slash then rest :: afterSlashes rest else afterSlashes rest

/-- The text without any of its first bytes up to a slash. -/
def dropsBeforeSlash : List UInt8 → List (List UInt8)
  | [] => [[]]
  | b :: rest => (b :: rest) :: if b = slash then [] else dropsBeforeSlash rest

/-- The bytes of a list of ranges of characters. A character of several bytes adds each of them, and
a range spans the last byte of its first character and the first byte of its last one. -/
def setContains (ranges : List (Char × Char)) (b : UInt8) : Bool :=
  ranges.any fun (first, last) =>
    let low := bytesOf first.toString
    if first = last then low.contains b
    else
      let high := bytesOf last.toString
      low.dropLast.contains b || high.tail.contains b ||
        (low.getLast?.any (· ≤ b) && high.head?.any (b ≤ ·))

mutual

/-- Nothing at all is written by this token. -/
def IgnoreToken.isBlank : IgnoreToken → Bool
  | .choice branches => IgnoreToken.branchesBlank branches
  | _ => false

def IgnoreToken.listBlank : List IgnoreToken → Bool
  | [] => true
  | t :: ts => t.isBlank && IgnoreToken.listBlank ts

def IgnoreToken.branchesBlank : List (List IgnoreToken) → Bool
  | [] => true
  | ts :: rest => IgnoreToken.listBlank ts && IgnoreToken.branchesBlank rest

end

mutual

/-- What a token can leave of a text. -/
def IgnoreToken.rests : IgnoreToken → List UInt8 → List (List UInt8)
  | .exact c, bs => if (bytesOf c.toString).isPrefixOf bs then
      [bs.drop (bytesOf c.toString).length] else []
  | .anyByte, bs =>
      match bs with
      | b :: rest => if b = slash then [] else [rest]
      | [] => []
  | .anyText, bs => dropsBeforeSlash bs
  | .leading, bs => bs :: afterSlashes bs
  | .trailing, bs =>
      match bs with
      | b :: rest => if b = slash then suffixes rest else []
      | [] => []
  | .between, bs =>
      match bs with
      | b :: rest => if b = slash then rest :: afterSlashes rest else []
      | [] => []
  | .set negated ranges, bs =>
      match bs with
      | b :: rest => if setContains ranges b != negated then [rest] else []
      | [] => []
  | .choice branches, bs =>
      if IgnoreToken.branchesBlank branches then [bs] else IgnoreToken.branchRests branches bs

def IgnoreToken.listRests : List IgnoreToken → List UInt8 → List (List UInt8)
  | [], bs => [bs]
  | t :: ts, bs => (IgnoreToken.rests t bs).flatMap (IgnoreToken.listRests ts)

/-- Alternatives that write nothing do not count. -/
def IgnoreToken.branchRests : List (List IgnoreToken) → List UInt8 → List (List UInt8)
  | [], _ => []
  | ts :: rest, bs =>
      (if IgnoreToken.listBlank ts then [] else IgnoreToken.listRests ts bs) ++
        IgnoreToken.branchRests rest bs

end

/-- A pattern that stands for any path whatever. -/
def IgnoreGlob.isUniversal : List IgnoreToken → Bool
  | [.leading] => true
  | _ => false

/-- The pattern matches the whole text. -/
def IgnoreGlob.fits (ts : List IgnoreToken) (path : String) : Bool :=
  IgnoreGlob.isUniversal ts || (IgnoreToken.listRests ts (bytesOf path)).any List.isEmpty

end AccessorScan
