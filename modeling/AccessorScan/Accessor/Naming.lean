import AccessorScan.Text.Uppercase

/-!
# `AccessorScan.Accessor.Naming` — names of accessors and the properties they name

## Contents
- `Prefix`: the three prefixes.
- `decapitalize`: lowers an uppercase first character, and refuses any other text.
- `splitName`: a method name split into its prefix and its property.
-/

namespace AccessorScan

inductive Prefix where
  | is
  | get
  | set
  deriving DecidableEq, Repr

namespace Prefix

def text : Prefix → String
  | .is => "is"
  | .get => "get"
  | .set => "set"

def all : List Prefix := [.is, .get, .set]

end Prefix

/-- What follows `start` in `cs`, if `cs` starts with it. -/
def afterStart? : List Char → List Char → Option (List Char)
  | [], cs => some cs
  | _ :: _, [] => none
  | s :: start, c :: cs => if s = c then afterStart? start cs else none

/-- The text with its first character in lower case. Only an uppercase first character will do. -/
def decapitalize : List Char → Option (List Char)
  | [] => none
  | c :: rest => if isUppercase c then some (lowercase c ++ rest) else none

/-- The prefix of a method name and the property that the rest names (`getURL` names `uRL`). -/
def splitName (name : String) : Option (Prefix × String) :=
  Prefix.all.findSome? fun p => do
    let rest ← afterStart? p.text.toList name.toList
    let property ← decapitalize rest
    return (p, String.ofList property)

end AccessorScan
