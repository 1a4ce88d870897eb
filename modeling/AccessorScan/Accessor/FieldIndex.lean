import AccessorScan.Model.Basic

/-!
# `AccessorScan.Accessor.FieldIndex` — the fields of one type by name

## Contents
- `FieldIndex`: the fields that can be found, the first declaration of every name.
- `FieldIndex.ofType`, `get?`, `privateField?`, `size`, `isEmpty`.
-/

namespace AccessorScan

/-- The fields of one type that can be found by name, in declaration order. -/
structure FieldIndex where
  entries : List Field

namespace FieldIndex

def get? (index : FieldIndex) (name : String) : Option Field :=
  index.entries.find? fun f => f.name == name

/-- The index with one more declaration; an earlier one of the same name wins. -/
def declare (index : FieldIndex) (f : Field) : FieldIndex :=
  if (index.get? f.name).isSome then index else ⟨index.entries ++ [f]⟩

def ofFields (fields : List Field) : FieldIndex := fields.foldl declare ⟨[]⟩

/-- The index of the fields declared directly in a type. -/
def ofType (t : TypeDecl) : FieldIndex := ofFields t.fields

/-- The field of that name, if it is private and not static. -/
def privateField? (index : FieldIndex) (name : String) : Option Field :=
  (index.get? name).filter Field.isPrivateInstance

def size (index : FieldIndex) : Nat := index.entries.length

def isEmpty (index : FieldIndex) : Bool := index.entries.isEmpty

end FieldIndex

end AccessorScan
