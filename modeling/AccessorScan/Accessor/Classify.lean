import AccessorScan.Accessor.FieldIndex
import AccessorScan.Accessor.Naming

/-!
# `AccessorScan.Accessor.Classify` — which members are accessors

A getter returns, and a setter assigns, exactly one private instance field of its own type, the one
its name speaks of. Only names and shapes are looked at; what fits no rule is no accessor.

## Contents
- `Accessor`: a getter or a setter of a property.
- `isGetter`, `isSetter`: the shapes.
- `classify` against a type, `FieldIndex.classify` against a prepared index.
-/

namespace AccessorScan

inductive Accessor where
  | getter (property : String)
  | setter (property : String)
  deriving DecidableEq, Repr

namespace Accessor

def property : Accessor → String
  | .getter p => p
  | .setter p => p

def label : Accessor → String
  | .getter _ => "getter"
  | .setter _ => "setter"

end Accessor

namespace FieldIndex

/-- The expression names the property, and the property is a private instance field. -/
def refersTo (index : FieldIndex) (e : Expression) (property : String) : Bool :=
  e.fieldName? == some property && (index.privateField? property).isSome

/-- No parameters and a body that returns the property; after `is` the result is `boolean`. -/
def isGetter (index : FieldIndex) (p : Prefix) (m : Callable) (body : List Statement)
    (property : String) : Bool :=
  (p != .is || m.result == .boolean) && m.parameters.isEmpty &&
    match body with
    | [.result (some value)] => index.refersTo value property
    | _ => false

/-- One parameter, no result and a body that assigns the property. A bare name that is also the
name of the parameter stands for the parameter, so the field is not written. -/
def isSetter (index : FieldIndex) (m : Callable) (body : List Statement) (property : String) :
    Bool :=
  m.result == .void && m.parameters.length == 1 &&
    match body with
    | [.assignment (.name n) _] => !m.hasParameter n && index.refersTo (.name n) property
    | [.assignment target _] => index.refersTo target property
    | _ => false

/-- The accessor that a method with this name and body is. -/
def classifyMethod (index : FieldIndex) (m : Callable) : Option Accessor := do
  let body ← m.body
  let (p, property) ← splitName m.name
  match p with
  | .set => if index.isSetter m body property then some (.setter property) else none
  | p => if index.isGetter p m body property then some (.getter property) else none

/-- The accessor that a member is, judged by the fields of this index. -/
def classify (index : FieldIndex) : Member → Option Accessor
  | .method m => index.classifyMethod m
  | _ => none

end FieldIndex

/-- The accessor that a member is, judged by the fields of this type. -/
def classify (t : TypeDecl) (m : Member) : Option Accessor := (FieldIndex.ofType t).classify m

end AccessorScan
