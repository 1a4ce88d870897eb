import AccessorScan.Model.Basic
import AccessorScan.Syntax.Tree

/-!
# `AccessorScan.Model.OfTree` — the model of a syntax tree

Reads the structural model off a syntax tree: the type declarations among the children of the root,
their members in order, and the statements of each body. What has no counterpart in the model keeps
the kind of its node.

## Contents
- `TypeRef.ofTree`, `Parameter.ofTree?`, `Expression.ofTree`, `Statement.ofTree`.
- `Field.listOfTree`, `Callable.ofTree`.
- `TypeDecl.ofTree?` and `Member.listOfTree`, by recursion on the tree.
- `TypeDecl.listOfProgram`.
-/

namespace AccessorScan

/-- The text of the part in the role `r`; empty if there is no such part. -/
def Tree.partText (t : Tree) (r : Role) : String := ((t.part? r).map Tree.text).getD ""

/-! ## Types and parameters -/

/-- The type named by the tree `t`, with the dimensions that follow the declared name. -/
def TypeRef.ofTree (t : Tree) (dimensions : Option Tree) : TypeRef :=
  match dimensions with
  | some d => .reference (t.text ++ d.text)
  | none =>
      if ["void_type", "boolean_type", "integral_type", "floating_point_type"].contains t.kind then
        .ofKeyword t.text
      else .reference t.text

/-- The type that the part of a declaration in the role `type` names. -/
def TypeRef.ofDeclaration (t : Tree) (dimensions : Option Tree) : TypeRef :=
  match t.part? .type with
  | some type => .ofTree type dimensions
  | none => .reference "<missing>"

/-- A parameter with any number of arguments is written `T...` before its name; its type is the
first part that is neither its modifiers nor its name. -/
def Parameter.ofSpread? (t : Tree) : Option Parameter := do
  let declarator ← t.namedChildren.find? fun c => c.kind == "variable_declarator"
  let type ← t.namedChildren.find? fun c => !(["modifiers", "variable_declarator"].contains c.kind)
  let name ← declarator.part? .name
  return ⟨name.text, .reference (type.text ++ "...")⟩

/-- The parameter that a child of a parameter list declares. A receiver declares none. -/
def Parameter.ofTree? (t : Tree) : Option Parameter :=
  match t.kind with
  | "formal_parameter" => do
      let name ← t.part? .name
      let type ← t.part? .type
      return ⟨name.text, .ofTree type (t.part? .dimensions)⟩
  | "spread_parameter" => ofSpread? t
  | _ => none

/-- The parameters of a parameter list. -/
def Parameter.listOfTree (t : Tree) : List Parameter := t.namedChildren.filterMap Parameter.ofTree?

/-- The parameters of a declaration; none if it has no parameter list. -/
def Parameter.listOfDeclaration (t : Tree) : List Parameter :=
  ((t.part? .parameters).map listOfTree).getD []

/-- The keyword modifiers of a declaration. -/
def Modifier.listOfTree (t : Tree) : List Modifier :=
  match t.children.find? fun c => c.kind == "modifiers" with
  | some ms => ms.children.filterMap fun m => Modifier.ofKeyword? m.kind
  | none => []

/-! ## Bodies -/

/-- The kinds of leaf and node that are literals. -/
def literalKinds : List String :=
  ["decimal_integer_literal", "hex_integer_literal", "octal_integer_literal",
    "binary_integer_literal", "decimal_floating_point_literal", "hex_floating_point_literal",
    "character_literal", "string_literal", "text_block", "null_literal", "true", "false"]

/-- An access to a field, as an expression. -/
def Expression.ofFieldAccess (t : Tree) : Expression :=
  match t.part? .object, t.part? .field with
  | some object, some field =>
      if object.kind = "this" ∧ field.kind = "identifier" then .selfField field.text
      else .other t.kind
  | _, _ => .other t.kind

/-- An expression that is not in parentheses. -/
def Expression.ofBare (t : Tree) : Expression :=
  if t.kind = "identifier" then .name t.text
  else if t.kind = "field_access" then ofFieldAccess t
  else if literalKinds.contains t.kind then .literal t.text
  else .other t.kind

mutual

/-- An expression; parentheses around it do not count. -/
def Expression.ofTree : Tree → Expression
  | .leaf role token => ofBare (.leaf role token)
  | .node role kind cs =>
      if kind = "parenthesized_expression" then Expression.ofParenthesized cs
      else ofBare (.node role kind cs)

/-- The expression between parentheses. -/
def Expression.ofParenthesized : List Tree → Expression
  | [] => .other "parenthesized_expression"
  | t :: ts => if t.isNamed && !t.isComment then Expression.ofTree t else ofParenthesized ts

end

/-- An expression as a statement. -/
def Statement.ofExpression (t : Tree) : Statement :=
  if t.kind = "assignment_expression" ∧ t.partText .operator = "=" then
    match t.part? .left, t.part? .right with
    | some target, some value => .assignment (.ofTree target) (.ofTree value)
    | _, _ => .other t.kind
  else .expression (.ofTree t)

def Statement.ofTree (t : Tree) : Statement :=
  match t.kind with
  | "return_statement" => .result (t.content?.map Expression.ofTree)
  | "expression_statement" =>
      match t.content? with
      | some e => ofExpression e
      | none => .other t.kind
  | kind => .other kind

/-- The statement that a child of a block is, if it is one. A lone semicolon is one although it is
punctuation elsewhere. -/
def Statement.ofChild? (t : Tree) : Option Statement :=
  if t.isComment || t.isMissing then none
  else if t.kind = ";" then some (.other "empty_statement")
  else if t.isNamed then some (.ofTree t)
  else none

def Statement.listOfBlock (t : Tree) : List Statement := t.children.filterMap Statement.ofChild?

/-! ## Members -/

/-- The fields that a declaration declares, one for each declarator, with modifiers that need not be
written. -/
def Field.listOfTree (t : Tree) (implied : List Modifier) : List Field :=
  let written := Modifier.listOfTree t
  let modifiers := implied.foldl (fun ms m => if ms.contains m then ms else ms ++ [m]) written
  (t.parts .declarator).filterMap fun d =>
    (d.part? .name).map fun name =>
      ⟨name.text, .ofDeclaration t (d.part? .dimensions), modifiers, d.line⟩

/-- What is implied of a constant of an interface. -/
def constantModifiers : List Modifier := [.publicAccess, .static, .final]

/-- A method or a constructor with the given result. -/
def Callable.ofTree (t : Tree) (result : TypeRef) : Callable where
  name := t.partText .name
  parameters := Parameter.listOfDeclaration t
  result := result
  modifiers := Modifier.listOfTree t
  body := (t.part? .body).map Statement.listOfBlock
  line := t.line

def Callable.ofMethod (t : Tree) : Callable :=
  ofTree t (.ofDeclaration t (t.part? .dimensions))

/-- The private fields that the components of a record stand for. -/
def Field.listOfComponents (t : Tree) : List Field :=
  match t.part? .parameters with
  | some list =>
      (Parameter.listOfTree list).map fun p =>
        ⟨p.name, p.type, [.privateAccess, .final], list.line⟩
  | none => []

def TypeKind.ofDeclaration? : String → Option TypeKind
  | "class_declaration" => some .ordinary
  | "interface_declaration" => some .interface
  | "enum_declaration" => some .enumeration
  | "record_declaration" => some .record
  | _ => none

/-- A type declaration, given the members of its body. -/
def TypeDecl.ofParts? (t : Tree) (members : List Member) : Option TypeDecl := do
  let kind ← TypeKind.ofDeclaration? t.kind
  let name ← t.part? .name
  return ⟨name.text, kind, t.line, (Field.listOfComponents t).map Member.field ++ members⟩

/-- The members that a child of a body makes if it is no type declaration. -/
def Member.listOfPart (t : Tree) : List Member :=
  match t.kind with
  | "field_declaration" => (Field.listOfTree t []).map Member.field
  | "constant_declaration" => (Field.listOfTree t constantModifiers).map Member.field
  | "method_declaration" => [.method (Callable.ofMethod t)]
  | "constructor_declaration" | "compact_constructor_declaration" =>
      [.constructor (Callable.ofTree t .void)]
  | "line_comment" | "block_comment" => []
  | kind => [.other kind]

mutual

/-- The members that a child of a body makes. Punctuation makes none, and the part of an enumeration
after its constants makes those of its children. -/
def Member.listOfTree : Tree → List Member
  | .leaf role token => if token.isNamed then listOfPart (.leaf role token) else []
  | .node role kind cs =>
      if kind = "enum_body_declarations" then Member.listOfTrees cs
      else if (TypeKind.ofDeclaration? kind).isSome then
        match TypeDecl.ofParts? (.node role kind cs) (Member.listOfBody cs) with
        | some decl => [.type decl]
        | none => [.other kind]
      else listOfPart (.node role kind cs)

def Member.listOfTrees : List Tree → List Member
  | [] => []
  | t :: ts => Member.listOfTree t ++ Member.listOfTrees ts

/-- The members in the body among the parts of a type declaration. -/
def Member.listOfBody : List Tree → List Member
  | [] => []
  | .leaf (some .body) _ :: _ => []
  | .node (some .body) _ cs :: _ => Member.listOfTrees cs
  | _ :: ts => Member.listOfBody ts

end

def TypeDecl.ofTree? (t : Tree) : Option TypeDecl :=
  TypeDecl.ofParts? t (Member.listOfBody t.children)

/-- The types declared at the top of a program. -/
def TypeDecl.listOfProgram (t : Tree) : List TypeDecl := t.namedChildren.filterMap TypeDecl.ofTree?

end AccessorScan
