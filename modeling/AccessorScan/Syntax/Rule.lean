import AccessorScan.Syntax.Tree

/-!
# `AccessorScan.Syntax.Rule` — grammar rules and what they read

A grammar is a table of rules, one for each phrase. A rule reads lexemes from the front of the input
and puts trees behind those already collected; of several alternatives the first that reads
something is taken. Rules look at the kind and the text of a lexeme and at whether it follows the
one before at once, never at its place, so a source may be moved without being read differently.

## Contents
- `LexemeRule`: which single lexemes fit, and what leaf they make.
- `Rule` and shorthands (`maybe`, `repeated`, `sepBy`).
- `Outcome` and `Rule.run`, with one equation per rule for what is found.
-/

namespace AccessorScan

/-! ## Single lexemes -/

/-- A rule for one lexeme. -/
inductive LexemeRule where
  /-- Any word but these; a leaf of this kind. -/
  | word (kind : String) (except : List String)
  /-- Exactly this keyword, operator or separator. -/
  | exact (text : String)
  /-- Exactly this text, as a leaf of this kind that counts as a part of its own. -/
  | named (kind text : String)
  /-- A number or a character literal. -/
  | literal
  /-- A string literal or a piece of one. -/
  | piece (kind : LexemeKind)

/-- The kind of the leaf for a lexeme that fits, and whether it counts as a part of its own. -/
def LexemeRule.leaf? : LexemeRule → Lexeme → Option (String × Bool)
  | .word kind except, l =>
      if l.kind = .word ∧ ¬ except.contains l.text then some (kind, true) else none
  | .exact text, l => if l.text = text then some (text, false) else none
  | .named kind text, l => if l.text = text then some (kind, true) else none
  | .literal, l =>
      match l.kind with
      | .literal kind => some (kind, true)
      | _ => none
  | .piece kind, l => if l.kind = kind then some ("string_fragment", true) else none

/-- Several lexemes that follow each other at once, taken for one. -/
def joined? : List String → List Lexeme → Option (Lexeme × List Lexeme)
  | [], _ => none
  | [t], l :: rest => if l.text = t then some (l, rest) else none
  | t :: ts, l :: rest =>
      if l.text = t ∧ (rest.head?.any Lexeme.isGlued) then
        (joined? ts rest).map fun (m, after) => ({ l with text := l.text ++ m.text }, after)
      else none
  | _, [] => none

/-! ## Rules -/

/-- A rule of a grammar whose phrases are `P`. -/
inductive Rule (P : Type) where
  /-- The rule that the grammar has for a phrase. -/
  | phrase (p : P)
  | lexeme (r : LexemeRule)
  /-- These lexemes, each at once after the one before, as one leaf. -/
  | joined (texts : List String)
  /-- The end of the source. -/
  | finish
  /-- One after the other. -/
  | all (rs : List (Rule P))
  /-- The first one that reads something. -/
  | any (rs : List (Rule P))
  /-- As often as possible. -/
  | many (r : Rule P)
  /-- Gives what `rule` reads its role in the node around it. -/
  | role (r : Role) (rule : Rule P)
  /-- A node around what `rule` reads. -/
  | node (kind : String) (rule : Rule P)
  /-- A node around what the phrase has read so far, in the role `r` if there is one, and what
  `rule` reads. -/
  | around (kind : String) (r : Option Role) (rule : Rule P)
  /-- Reads nothing; whether the next lexeme is one of these must be as `wanted`. -/
  | next (wanted : Bool) (texts : List String)
  /-- Reads nothing; the last tree must be of one of these kinds. -/
  | after (kinds : List String)

namespace Rule

variable {P : Type}

instance : Coe String (Rule P) := ⟨fun t => .lexeme (.exact t)⟩

instance : Coe P (Rule P) := ⟨.phrase⟩

/-- Zero or one time. -/
def maybe (r : Rule P) : Rule P := .any [r, .all []]

/-- One or more times. -/
def repeated (r : Rule P) : Rule P := .all [r, .many r]

/-- One or more times with `separator` between. -/
def sepBy1 (separator : String) (r : Rule P) : Rule P :=
  .all [r, .many (.all [.lexeme (.exact separator), r])]

/-- Any number of times with `separator` between. -/
def sepBy (separator : String) (r : Rule P) : Rule P := maybe (sepBy1 separator r)

/-- One of several keywords or marks. -/
def oneOf (texts : List String) : Rule P := .any (texts.map fun t => .lexeme (.exact t))

end Rule

/-! ## Running -/

/-- What a rule makes of an input. -/
structure Outcome where
  /-- The trees collected and the rest of the input. -/
  found? : Option (List Tree × List Lexeme)
  /-- The place of the furthest lexeme that did not fit. -/
  reach : Nat

namespace Outcome

/-- The first lexeme of the input does not fit. -/
def miss (input : List Lexeme) : Outcome :=
  ⟨none, match input with | l :: _ => l.offset + 1 | [] => 0⟩

def found (trees : List Tree) (rest : List Lexeme) : Outcome := ⟨some (trees, rest), 0⟩

def ofOption (input : List Lexeme) : Option (List Tree × List Lexeme) → Outcome
  | some (trees, rest) => found trees rest
  | none => miss input

def map (f : List Tree → List Tree) (o : Outcome) : Outcome :=
  ⟨o.found?.map fun (trees, rest) => (f trees, rest), o.reach⟩

/-- Goes on with what was found. -/
def andThen (o : Outcome) (f : List Tree → List Lexeme → Outcome) : Outcome :=
  match o.found? with
  | some (trees, rest) =>
      let next := f trees rest
      ⟨next.found?, max o.reach next.reach⟩
  | none => o

/-- Goes on with `f` if nothing was found. -/
def orElse (o : Outcome) (f : Unit → Outcome) : Outcome :=
  match o.found? with
  | some _ => o
  | none =>
      let next := f ()
      ⟨next.found?, max o.reach next.reach⟩

@[simp] theorem found?_found (trees : List Tree) (rest : List Lexeme) :
    (found trees rest).found? = some (trees, rest) := rfl

@[simp] theorem found?_miss (input : List Lexeme) : (miss input).found? = none := rfl

@[simp] theorem found?_ofOption (input : List Lexeme) (r : Option (List Tree × List Lexeme)) :
    (ofOption input r).found? = r := by
  cases r <;> rfl

@[simp] theorem found?_map (f : List Tree → List Tree) (o : Outcome) :
    (o.map f).found? = o.found?.map fun (trees, rest) => (f trees, rest) := rfl

@[simp] theorem found?_andThen (o : Outcome) (f : List Tree → List Lexeme → Outcome) :
    (o.andThen f).found? = o.found?.bind fun (trees, rest) => (f trees rest).found? := by
  unfold andThen
  cases h : o.found? <;> simp_all

@[simp] theorem found?_orElse (o : Outcome) (f : Unit → Outcome) :
    (o.orElse f).found? = o.found?.or (f ()).found? := by
  unfold orElse
  cases h : o.found? <;> simp_all

end Outcome

/-- Gives trees a role; asides have none. -/
def labelled (r : Role) (ts : List Tree) : List Tree :=
  ts.map fun t => if t.isAside then t else t.withRole r

namespace Rule

variable {P : Type}

/-- What a rule that reads single lexemes finds. -/
def readLexeme (r : LexemeRule) (trees : List Tree) : List Lexeme → Option (List Tree × List Lexeme)
  | l :: rest => (r.leaf? l).map fun (kind, named) => (trees ++ l.leaves kind named, rest)
  | [] => none

def readJoined (texts : List String) (trees : List Tree) (input : List Lexeme) :
    Option (List Tree × List Lexeme) :=
  (joined? texts input).map fun (l, rest) => (trees ++ l.leaves l.text false, rest)

/-- The end of the source leaves only what stands before it. -/
def readFinish (trees : List Tree) : List Lexeme → Option (List Tree × List Lexeme)
  | l :: rest =>
      if l.kind = .finish then some (trees ++ l.asides.map Aside.leaf, rest) else none
  | [] => none

def isNext (texts : List String) : List Lexeme → Bool
  | l :: _ => texts.contains l.text
  | [] => false

def isAfter (kinds : List String) (trees : List Tree) : Bool :=
  trees.getLast?.any fun t => kinds.contains t.kind

/-- Reads `input` by a rule of the grammar `g`, with `trees` already collected. One unit of fuel is
spent on each step down. -/
def run (g : P → Rule P) : Nat → Rule P → List Tree → List Lexeme → Outcome
  | 0, _, _, input => .miss input
  | fuel + 1, rule, trees, input =>
      match rule with
      | phrase p => (run g fuel (g p) [] input).map (trees ++ ·)
      | lexeme r => .ofOption input (readLexeme r trees input)
      | joined texts => .ofOption input (readJoined texts trees input)
      | finish => .ofOption input (readFinish trees input)
      | all [] => .found trees input
      | all (r :: rs) => (run g fuel r trees input).andThen (run g fuel (all rs))
      | any [] => .miss input
      | any (r :: rs) => (run g fuel r trees input).orElse fun _ => run g fuel (any rs) trees input
      | many r =>
          let first := run g fuel r trees input
          match first.found? with
          | Option.some _ => first.andThen (run g fuel (many r))
          | none => ⟨Option.some (trees, input), first.reach⟩
      | role r rule => (run g fuel rule [] input).map fun ts => trees ++ labelled r ts
      | node kind rule => (run g fuel rule [] input).map fun ts => trees ++ Tree.wrap kind ts
      | around kind r? rule =>
          let inner := match r? with | Option.some r => labelled r trees | none => trees
          (run g fuel rule inner input).map (Tree.wrap kind)
      | next wanted texts =>
          if isNext texts input = wanted then .found trees input else .miss input
      | after kinds => if isAfter kinds trees then .found trees input else .miss input

end Rule

end AccessorScan
