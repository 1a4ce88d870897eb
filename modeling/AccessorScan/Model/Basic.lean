/-!
# `AccessorScan.Model.Basic` — the structural model of type declarations

What accessor detection needs to know of a source: types with their members in declaration order,
and method bodies as lists of shallow statements. Whatever the detection does not look into keeps
only the name of its syntactic kind (`other`).

## Contents
- `TypeKind`, `Modifier`, `TypeRef`, `Expression`, `Statement`, `Parameter`, `Field`, `Callable`.
- `TypeDecl` and `Member`, which contain each other.
- Builders (`TypeDecl.empty`, `TypeDecl.add`, `Callable.empty`, …) and views (`fields`, `callables`,
  `nested`).
-/

namespace AccessorScan

/-- The four forms of type declaration. -/
inductive TypeKind where
  | ordinary
  | interface
  | enumeration
  | record
  deriving DecidableEq, Repr

/-- The keyword that introduces a declaration of this form. -/
def TypeKind.keyword : TypeKind → String
  | .ordinary => "class"
  | .interface => "interface"
  | .enumeration => "enum"
  | .record => "record"

def TypeKind.ofKeyword? : String → Option TypeKind
  | "class" => some .ordinary
  | "interface" => some .interface
  | "enum" => some .enumeration
  | "record" => some .record
  | _ => none

theorem TypeKind.ofKeyword?_keyword (k : TypeKind) : ofKeyword? k.keyword = some k := by
  cases k <;> rfl

/-- The keyword modifiers; annotations are not among them. -/
inductive Modifier where
  | publicAccess
  | protectedAccess
  | privateAccess
  | static
  | final
  | abstract
  | default
  | synchronized
  | native
  | transient
  | volatile
  | strictfp
  deriving DecidableEq, Repr

def Modifier.keyword : Modifier → String
  | .publicAccess => "public"
  | .protectedAccess => "protected"
  | .privateAccess => "private"
  | .static => "static"
  | .final => "final"
  | .abstract => "abstract"
  | .default => "default"
  | .synchronized => "synchronized"
  | .native => "native"
  | .transient => "transient"
  | .volatile => "volatile"
  | .strictfp => "strictfp"

def Modifier.ofKeyword? : String → Option Modifier
  | "public" => some .publicAccess
  | "protected" => some .protectedAccess
  | "private" => some .privateAccess
  | "static" => some .static
  | "final" => some .final
  | "abstract" => some .abstract
  | "default" => some .default
  | "synchronized" => some .synchronized
  | "native" => some .native
  | "transient" => some .transient
  | "volatile" => some .volatile
  | "strictfp" => some .strictfp
  | _ => none

theorem Modifier.ofKeyword?_keyword (m : Modifier) : ofKeyword? m.keyword = some m := by
  cases m <;> rfl

/-- The declared type of a field, a parameter or a result. -/
inductive TypeRef where
  | void
  /-- The primitive type; its boxed class is a `reference`. -/
  | boolean
  /-- Any other primitive type, by its keyword. -/
  | primitive (name : String)
  /-- A class, array or generic type, as it is written. -/
  | reference (text : String)
  deriving DecidableEq, Repr

/-- The type that a primitive keyword stands for. -/
def TypeRef.ofKeyword : String → TypeRef
  | "void" => .void
  | "boolean" => .boolean
  | other => .primitive other

/-- The type as it is written. -/
def TypeRef.text : TypeRef → String
  | .void => "void"
  | .boolean => "boolean"
  | .primitive name => name
  | .reference text => text

inductive Expression where
  /-- A bare identifier. -/
  | name (name : String)
  /-- A field of the current object, written with its qualifier. -/
  | selfField (name : String)
  | literal (text : String)
  /-- Anything else, by its syntactic kind. -/
  | other (kind : String)
  deriving DecidableEq, Repr

/-- The name under which an expression may refer to a field of the current object. -/
def Expression.fieldName? : Expression → Option String
  | .name n => some n
  | .selfField n => some n
  | .literal _ => none
  | .other _ => none

inductive Statement where
  | result (value : Option Expression)
  /-- A plain assignment; compound ones are expression statements. -/
  | assignment (target value : Expression)
  | expression (expr : Expression)
  /-- Anything else, by its syntactic kind. -/
  | other (kind : String)
  deriving DecidableEq, Repr

structure Parameter where
  name : String
  type : TypeRef
  deriving DecidableEq, Repr

structure Field where
  name : String
  type : TypeRef
  modifiers : List Modifier
  /-- The line of its declarator, counted from 1; 0 where there is no source. -/
  line : Nat
  deriving DecidableEq, Repr

def Field.has (f : Field) (m : Modifier) : Bool := f.modifiers.contains m

def Field.isPrivate (f : Field) : Bool := f.has .privateAccess

/-- A field that belongs to each object and that no other class sees. -/
def Field.isPrivateInstance (f : Field) : Bool := f.isPrivate && !f.has .static

/-- A method or a constructor. -/
structure Callable where
  name : String
  parameters : List Parameter
  result : TypeRef
  modifiers : List Modifier
  /-- `none` where the declaration ends without a block. -/
  body : Option (List Statement)
  line : Nat
  deriving DecidableEq, Repr

namespace Callable

/-- A callable without parameters, modifiers and body. -/
def empty (name : String) (result : TypeRef) : Callable := ⟨name, [], result, [], none, 0⟩

def addParameter (c : Callable) (p : Parameter) : Callable :=
  { c with parameters := c.parameters ++ [p] }

def withBody (c : Callable) (body : List Statement) : Callable := { c with body := some body }

def hasParameter (c : Callable) (name : String) : Bool := c.parameters.any fun p => p.name == name

end Callable

mutual

/-- A type declaration with its members in declaration order. -/
structure TypeDecl where
  name : String
  kind : TypeKind
  line : Nat
  members : List Member

inductive Member where
  | field (field : Field)
  | method (method : Callable)
  /-- A constructor has the shape of a method and is never an accessor. -/
  | constructor (method : Callable)
  | type (type : TypeDecl)
  /-- An initializer block or anything else, by its syntactic kind. -/
  | other (kind : String)

end

namespace Member

def name? : Member → Option String
  | .field f => some f.name
  | .method m => some m.name
  | .constructor m => some m.name
  | .type t => some t.name
  | .other _ => none

def line : Member → Nat
  | .field f => f.line
  | .method m => m.line
  | .constructor m => m.line
  | .type t => t.line
  | .other _ => 0

def isConstructor : Member → Bool
  | .constructor _ => true
  | _ => false

def field? : Member → Option Field
  | .field f => some f
  | _ => none

def callable? : Member → Option Callable
  | .method m => some m
  | .constructor m => some m
  | _ => none

def type? : Member → Option TypeDecl
  | .type t => some t
  | _ => none

end Member

namespace TypeDecl

/-- A declaration without members. -/
def empty (name : String) (kind : TypeKind) : TypeDecl := ⟨name, kind, 0, []⟩

/-- One more member, after the others. -/
def add (t : TypeDecl) (m : Member) : TypeDecl := { t with members := t.members ++ [m] }

/-- The fields among the members, in declaration order. -/
def fields (t : TypeDecl) : List Field := t.members.filterMap Member.field?

/-- The methods and constructors among the members, in declaration order. -/
def callables (t : TypeDecl) : List Member := t.members.filter fun m => m.callable?.isSome

/-- The types declared directly among the members, in declaration order. -/
def nested (t : TypeDecl) : List TypeDecl := t.members.filterMap Member.type?

end TypeDecl

end AccessorScan
