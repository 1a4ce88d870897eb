import AccessorScan.Syntax.Grammar

/-!
# `AccessorScan.Syntax.Source` — reading sources, broken ones too

A source that the grammar does not read is repaired where its reading stops: a closing mark is
supplied before that lexeme, or the lexeme is passed over. The repair after which the reading goes
furthest is kept. What was supplied or passed over stays visible in the tree.

## Contents
- `supply`, `skip`, `repairs`: the repairs at one place.
- `repaired`: repairs until the source is read or too many were made.
- `syntaxTree`: the tree of a source.
-/

namespace AccessorScan

/-- The marks that a repair may supply. -/
def suppliedMarks : List String := [";", ")", rightBrace, "]"]

/-- The lexemes with a mark supplied before the one at this place. -/
def supply (mark : String) (place : Nat) : List Lexeme → List Lexeme
  | [] => []
  | l :: ls =>
      if l.offset = place then ⟨.supplied, mark, [], "", l.line, l.offset⟩ :: l :: ls
      else l :: supply mark place ls

/-- A lexeme that was passed over, as an aside. -/
def Lexeme.skipped (l : Lexeme) : Aside := ⟨l.blank, Tree.skippedKind, l.text, l.line⟩

/-- The lexemes without the one at this place, which becomes an aside. The end stays. -/
def skip (place : Nat) : List Lexeme → List Lexeme
  | l :: next :: ls =>
      if l.offset = place then
        { next with asides := l.asides ++ [l.skipped] ++ next.asides } :: ls
      else l :: skip place (next :: ls)
  | ls => ls

/-- The ways to repair the source at this place. -/
def repairs (place : Nat) (ls : List Lexeme) : List (List Lexeme) :=
  suppliedMarks.map (fun mark => supply mark place ls) ++ [skip place ls]

/-- The better of two repairs: one that is read, or the one that is read further. -/
def betterRepair (a b : List Lexeme × Outcome) : List Lexeme × Outcome :=
  if a.2.found?.isSome then a
  else if b.2.found?.isSome || b.2.reach > a.2.reach then b
  else a

/-- How many repairs are made before a source is given up. Of a source that takes more nothing is read at
all, where the declarations that are complete could still be kept. -/
def repairLimit : Nat := 16

/-- The trees of a source that is not read by `read`, after at most `n` repairs. `reach` tells where
its reading stops. -/
def repaired (read : List Lexeme → Outcome) : Nat → List Lexeme → Nat → Option (List Tree)
  | 0, _, _ => none
  | n + 1, ls, reach =>
      let tried := (repairs (reach - 1) ls).map fun r => (r, read r)
      match tried with
      | [] => none
      | first :: others =>
          let (best, outcome) := others.foldl betterRepair first
          match outcome.found? with
          | some (trees, _) => some trees
          | none => repaired read n best outcome.reach

/-- The root of a tree with these children. -/
def programNode (ts : List Tree) : Tree := .node none "program" ts

/-- The tree of a source that is beyond repair: nothing of it is read. -/
def unreadable (source : String) : Tree :=
  programNode [.leaf none ⟨Tree.skippedKind, true, false, "", source, 1⟩]

/-- The tree of a source. -/
def syntaxTree (source : String) : Tree :=
  let ls := lexemes source
  let outcome := readProgram ls
  match outcome.found? with
  | some (trees, _) => programNode trees
  | none =>
      ((repaired readProgram repairLimit ls outcome.reach).map programNode).getD (unreadable source)

end AccessorScan
