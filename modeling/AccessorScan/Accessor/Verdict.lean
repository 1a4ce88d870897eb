import AccessorScan.Accessor.Classify

/-!
# `AccessorScan.Accessor.Verdict` — verdicts on all callables of a source

## Contents
- `Verdict`: what was found about one method or constructor.
- `verdicts`: those of the given types and of all types nested in them. The callables of a type come
  in declaration order and before those of its nested types.
- `findVerdict?`: the first one with a qualified name.
-/

namespace AccessorScan

structure Verdict where
  /-- The names of the enclosing types from the outermost one, joined by dots. -/
  owner : String
  method : String
  line : Nat
  isConstructor : Bool
  accessor : Option Accessor
  deriving DecidableEq, Repr

namespace Verdict

def isAccessor (v : Verdict) : Bool := v.accessor.isSome

def qualifiedName (v : Verdict) : String := v.owner ++ "." ++ v.method

end Verdict

/-- The verdicts on the callables declared directly in a type that is reached under this path. -/
def TypeDecl.ownVerdicts (t : TypeDecl) (path : String) : List Verdict :=
  let index := FieldIndex.ofType t
  t.callables.map fun m =>
    ⟨path, m.name?.getD "", m.line, m.isConstructor, index.classify m⟩

mutual

/-- The verdicts on a type that is reached under this path, and on the types nested in it. -/
def TypeDecl.verdictsUnder (path : String) : TypeDecl → List Verdict
  | ⟨name, kind, line, members⟩ =>
      TypeDecl.ownVerdicts ⟨name, kind, line, members⟩ path ++ Member.nestedVerdicts path members

/-- The verdicts on the types among these members of a type that is reached under this path. -/
def Member.nestedVerdicts (path : String) : List Member → List Verdict
  | [] => []
  | .type t :: rest =>
      TypeDecl.verdictsUnder (path ++ "." ++ t.name) t ++ Member.nestedVerdicts path rest
  | _ :: rest => Member.nestedVerdicts path rest

end

/-- The verdicts on every method and constructor of these types, nested types included. -/
def verdicts (types : List TypeDecl) : List Verdict :=
  types.flatMap fun t => t.verdictsUnder t.name

/-- The first verdict with this qualified name; of overloaded methods the first one declared. -/
def findVerdict? (vs : List Verdict) (qualifiedName : String) : Option Verdict :=
  vs.find? fun v => v.qualifiedName == qualifiedName

end AccessorScan
