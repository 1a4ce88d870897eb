import AccessorScan.Files.Path

/-!
# `AccessorScan.Files.Glob` — patterns for whole paths

In a pattern `?` stands for any character, `*` for any characters, slashes included, and `[…]` and
`[!…]` for one character in a set or outside it. `**` has to be a whole component and stands for any
number of components. A pattern has to match the whole path.

## Contents
- `GlobError` with its message.
- `GlobToken`, `Glob`, `Glob.ofText`.
- `Glob.fits`: whether a path is matched.
-/

namespace AccessorScan

/-! ## Errors -/

inductive GlobFault where
  /-- More than two stars in a row. -/
  | stars
  /-- Two stars that are no component of their own. -/
  | component
  /-- A set without an end. -/
  | set
  deriving DecidableEq, Repr

structure GlobError where
  /-- How many characters of the pattern stand before the fault. -/
  position : Nat
  fault : GlobFault
  deriving DecidableEq, Repr

def GlobFault.message : GlobFault → String
  | stars => "wildcards are either regular `*` or recursive `**`"
  | component => "recursive wildcards must form a single path component"
  | set => "invalid range pattern"

def GlobError.message (e : GlobError) : String :=
  "Pattern syntax error near position " ++ Nat.repr e.position ++ ": " ++ e.fault.message

/-! ## Patterns -/

/-- A part of a set of characters. -/
inductive CharRange where
  | single (c : Char)
  | range (first last : Char)
  deriving DecidableEq, Repr

inductive GlobToken where
  | exact (c : Char)
  | anyChar
  /-- `*` -/
  | anyText
  /-- `**` with the slash after it -/
  | anyComponents
  | within (set : List CharRange)
  | outside (set : List CharRange)
  deriving DecidableEq, Repr

structure Glob where
  tokens : List GlobToken
  deriving DecidableEq, Repr

namespace CharRange

def contains : CharRange → Char → Bool
  | single c, d => c == d
  | range first last, d => first ≤ d && d ≤ last

/-- The ranges written between the brackets. A hyphen between two characters makes a range. -/
def listOf : List Char → List CharRange
  | a :: '-' :: b :: rest => range a b :: listOf rest
  | a :: rest => single a :: listOf rest
  | [] => []

end CharRange

namespace Glob

/-- The set whose bracket has been read: its token, and how many characters it takes with both
brackets. The first character of a set is in it even if it is a bracket. -/
def setToken? : List Char → Option (GlobToken × Nat)
  | '!' :: first :: rest =>
      if rest.contains ']' then
        let set := first :: rest.takeWhile (· != ']')
        some (.outside (CharRange.listOf set), set.length + 3)
      else none
  | '!' :: [] => none
  | first :: rest =>
      if rest.contains ']' then
        let set := first :: rest.takeWhile (· != ']')
        some (.within (CharRange.listOf set), set.length + 2)
      else none
  | [] => none

/-- The token for two stars: how many characters it takes, with the slash that may follow. -/
def componentsToken (position : Nat) (previous : Option Char) (rest : List Char) :
    Except GlobError (GlobToken × Nat) :=
  if position = 0 ∨ previous = some '/' then
    match rest with
    | [] => .ok (.anyComponents, 2)
    | c :: _ => if c = '/' then .ok (.anyComponents, 3) else .error ⟨position + 2, .component⟩
  else .error ⟨position - 1, .component⟩

/-- The first token of `c :: rest` and how many characters it takes. -/
def firstToken (position : Nat) (previous : Option Char) (c : Char) (rest : List Char) :
    Except GlobError (GlobToken × Nat) :=
  if c = '?' then .ok (.anyChar, 1)
  else if c = '*' then
    match (rest.takeWhile (· == '*')).length with
    | 0 => .ok (.anyText, 1)
    | 1 => componentsToken position previous (rest.drop 1)
    | _ => .error ⟨position + 2, .stars⟩
  else if c = '[' then
    match setToken? rest with
    | some r => .ok r
    | none => .error ⟨position, .set⟩
  else .ok (.exact c, 1)

/-- One more token; of several `**` in a row only one is kept, unless they start the pattern. -/
def push (tokens : List GlobToken) (t : GlobToken) : List GlobToken :=
  if t = .anyComponents ∧ tokens.length > 1 ∧ tokens.getLast? = some .anyComponents then tokens
  else tokens ++ [t]

/-- The tokens of the rest of a pattern after those read so far. Every token takes a character, so
the length of the pattern is fuel enough. -/
def readTokens : Nat → Nat → Option Char → List GlobToken → List Char →
    Except GlobError (List GlobToken)
  | 0, _, _, tokens, _ => .ok tokens
  | _ + 1, _, _, tokens, [] => .ok tokens
  | fuel + 1, position, previous, tokens, c :: rest => do
      let (t, n) ← firstToken position previous c rest
      readTokens fuel (position + n) ((c :: rest)[n - 1]?) (push tokens t) ((c :: rest).drop n)

/-- The pattern written by a text. -/
def ofText (text : String) : Except GlobError Glob :=
  let cs := text.toList
  (readTokens cs.length 0 none [] cs).map Glob.mk

/-! ## Matching -/

/-- How an attempt to match ended. -/
inductive Fit where
  | fits
  /-- Not here; it may fit if more is left to an earlier wildcard. -/
  | misfit
  /-- The text is too short, whatever earlier wildcards take. -/
  | tooShort
  deriving DecidableEq, Repr

/-- One character against a token that takes one. -/
def fitsChar : GlobToken → Char → Bool
  | .exact c, d => c == d
  | .anyChar, _ => true
  | .within set, d => set.any fun r => r.contains d
  | .outside set, d => !set.any fun r => r.contains d
  | .anyText, _ => false
  | .anyComponents, _ => false

/-- Lets a wildcard take one character more and then `next` have the rest, until that fits. If only
whole components may be taken, `next` is tried after a slash and at the end. -/
def widen (next : List Char → Fit) (components : Bool) : List Char → Fit
  | [] => next []
  | c :: rest =>
      if components ∧ c ≠ '/' then widen next components rest
      else
        match next rest with
        | .misfit => widen next components rest
        | fit => fit

/-- How these tokens match a text. -/
def fit : List GlobToken → List Char → Fit
  | [], [] => .fits
  | [], _ :: _ => .misfit
  | .anyText :: tokens, cs =>
      match fit tokens cs with
      | .misfit => widen (fit tokens) false cs
      | r => r
  | .anyComponents :: tokens, cs =>
      match fit tokens cs with
      | .misfit => widen (fit tokens) true cs
      | r => r
  | _ :: _, [] => .tooShort
  | t :: tokens, c :: cs => if fitsChar t c then fit tokens cs else .misfit

/-- The pattern matches the whole path. -/
def fits (g : Glob) (p : FilePath) : Bool := fit g.tokens p.text.toList == .fits

end Glob

end AccessorScan
