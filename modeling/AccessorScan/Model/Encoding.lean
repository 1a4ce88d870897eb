import AccessorScan.Json.Basic
import AccessorScan.Model.Basic

/-!
# `AccessorScan.Model.Encoding` — the model as JSON

Every type of the model has a writer `toJson` and a reader `ofJson?`. Choices carry their tag in the
entries `member`, `stmt`, `type` and `expr`; the last two keep their content beside the tag.

## Contents
- `TypeKind.toJson`, `Modifier.toJson`, `TypeRef.toJson`, `Expression.toJson`, `Statement.toJson`,
  `Parameter.toJson`, `Field.toJson`, `Callable.entries`, each with its reader.
- `TypeDecl.toJson` and `Member.toJson`; their readers go by structural recursion on the JSON value.
-/

namespace AccessorScan

def TypeKind.toJson (k : TypeKind) : Json := .string k.keyword

def TypeKind.ofJson? (v : Json) : Option TypeKind := v.word?.bind ofKeyword?

def Modifier.toJson (m : Modifier) : Json := .string m.keyword

def Modifier.ofJson? (v : Json) : Option Modifier := v.word?.bind ofKeyword?

def TypeRef.toJson : TypeRef → Json
  | .void => .object [("type", .string "void")]
  | .boolean => .object [("type", .string "boolean")]
  | .primitive n => .object [("type", .string "primitive"), ("name", .string n)]
  | .reference t => .object [("type", .string "reference"), ("name", .string t)]

/-- No content, or an explicit `null`. -/
def Json.isBlankContent : Option Json → Bool
  | none => true
  | some .null => true
  | some _ => false

def TypeRef.ofJson? (v : Json) : Option TypeRef := do
  let (tag, content) ← v.adjacent? "type" "name"
  match tag with
  | "void" => if Json.isBlankContent content then some .void else none
  | "boolean" => if Json.isBlankContent content then some .boolean else none
  | "primitive" => return .primitive (← (← content).string?)
  | "reference" => return .reference (← (← content).string?)
  | _ => none

def Expression.toJson : Expression → Json
  | .name n => .object [("expr", .string "name"), ("value", .string n)]
  | .selfField n => .object [("expr", .string "self_field"), ("value", .string n)]
  | .literal t => .object [("expr", .string "literal"), ("value", .string t)]
  | .other k => .object [("expr", .string "other"), ("value", .string k)]

def Expression.ofJson? (v : Json) : Option Expression := do
  let (tag, content) ← v.adjacent? "expr" "value"
  let text ← (← content).string?
  match tag with
  | "name" => some (.name text)
  | "self_field" => some (.selfField text)
  | "literal" => some (.literal text)
  | "other" => some (.other text)
  | _ => none

def Statement.toJson : Statement → Json
  | .result value =>
      .object [("stmt", .string "return"), ("value", .option Expression.toJson value)]
  | .assignment target value =>
      .object [("stmt", .string "assignment"), ("target", target.toJson), ("value", value.toJson)]
  | .expression e => .object [("stmt", .string "expression"), ("expr", e.toJson)]
  | .other k => .object [("stmt", .string "other"), ("kind", .string k)]

def Statement.ofJson? (v : Json) : Option Statement := do
  let (tag, content) ← v.tagged? "stmt"
  match tag with
  | "return" => do
      let l ← content.layout? 1
      return .result (← l.optional Expression.ofJson? 0 "value")
  | "assignment" => do
      let l ← content.layout? 2
      return .assignment (← l.required Expression.ofJson? 0 "target")
        (← l.required Expression.ofJson? 1 "value")
  | "expression" => do
      let l ← content.layout? 1
      return .expression (← l.required Expression.ofJson? 0 "expr")
  | "other" => do
      let l ← content.layout? 1
      return .other (← l.required Json.string? 0 "kind")
  | _ => none

def Parameter.toJson (p : Parameter) : Json :=
  .object [("name", .string p.name), ("ty", p.type.toJson)]

def Parameter.ofJson? (v : Json) : Option Parameter := do
  let l ← v.layout? 2
  return ⟨← l.required Json.string? 0 "name", ← l.required TypeRef.ofJson? 1 "ty"⟩

/-- The entries of a field, without its tag. -/
def Field.entries (f : Field) : List (String × Json) :=
  [("name", .string f.name), ("ty", f.type.toJson),
    ("modifiers", .array (f.modifiers.map Modifier.toJson)), ("line", .count f.line)]

def Field.toJson (f : Field) : Json := .object f.entries

def Field.ofJson? (v : Json) : Option Field := do
  let l ← v.layout? 4
  return ⟨← l.required Json.string? 0 "name", ← l.required TypeRef.ofJson? 1 "ty",
    ← l.required (Json.array? Modifier.ofJson?) 2 "modifiers", ← l.required Json.count? 3 "line"⟩

/-- The entries of a callable, without its tag. -/
def Callable.entries (c : Callable) : List (String × Json) :=
  [("name", .string c.name), ("parameters", .array (c.parameters.map Parameter.toJson)),
    ("return_type", c.result.toJson), ("modifiers", .array (c.modifiers.map Modifier.toJson)),
    ("body", .option (fun body => .array (body.map Statement.toJson)) c.body),
    ("line", .count c.line)]

def Callable.ofJson? (v : Json) : Option Callable := do
  let l ← v.layout? 6
  return ⟨← l.required Json.string? 0 "name",
    ← l.required (Json.array? Parameter.ofJson?) 1 "parameters",
    ← l.required TypeRef.ofJson? 2 "return_type",
    ← l.required (Json.array? Modifier.ofJson?) 3 "modifiers",
    ← l.optional (Json.array? Statement.ofJson?) 4 "body", ← l.required Json.count? 5 "line"⟩

mutual

/-- The entries of a type declaration, without a tag. -/
def TypeDecl.entries : TypeDecl → List (String × Json)
  | ⟨name, kind, line, members⟩ =>
      [("name", .string name), ("kind", kind.toJson), ("line", .count line),
        ("members", .array (Member.listToJson members))]

def Member.toJson : Member → Json
  | .field f => .object (("member", .string "field") :: f.entries)
  | .method m => .object (("member", .string "method") :: m.entries)
  | .constructor m => .object (("member", .string "constructor") :: m.entries)
  | .type t => .object (("member", .string "type") :: t.entries)
  | .other k => .object [("member", .string "other"), ("kind", .string k)]

def Member.listToJson : List Member → List Json
  | [] => []
  | m :: rest => m.toJson :: Member.listToJson rest

end

def TypeDecl.toJson (t : TypeDecl) : Json := .object t.entries

/-- A declaration from its layout, with the members that were read on their own. -/
def TypeDecl.ofLayout? (l : Json.Layout) (members : Option (List Member)) : Option TypeDecl := do
  return ⟨← l.required Json.string? 0 "name", ← l.required TypeKind.ofJson? 1 "kind",
    ← l.required Json.count? 2 "line", ← members⟩

/-- A member from its tag and the value without the tag; the members of a nested declaration were
read on their own. -/
def Member.ofTagged? (tag : String) (content : Json) (nested : Option (List Member)) :
    Option Member :=
  match tag with
  | "field" => (Field.ofJson? content).map .field
  | "method" => (Callable.ofJson? content).map .method
  | "constructor" => (Callable.ofJson? content).map .constructor
  | "type" => do
      let l ← content.layout? 4
      return .type (← TypeDecl.ofLayout? l nested)
  | "other" => do
      let l ← content.layout? 1
      return .other (← l.required Json.string? 0 "kind")
  | _ => none

mutual

def Member.ofJson? : Json → Option Member
  | .object entries => do
      let (tag, content) ← (Json.object entries).tagged? "member"
      Member.ofTagged? tag content (Member.listUnder? entries)
  | .array [tag, name, kind, line, members] => do
      let (tag, content) ← (Json.array [tag, name, kind, line, members]).tagged? "member"
      Member.ofTagged? tag content (Member.listOfJson? members)
  | .array items => do
      let (tag, content) ← (Json.array items).tagged? "member"
      Member.ofTagged? tag content none
  | _ => none

/-- The members under the entry of that name. -/
def Member.listUnder? : List (String × Json) → Option (List Member)
  | [] => none
  | (key, v) :: rest => if key == "members" then Member.listOfJson? v else Member.listUnder? rest

def Member.listOfJson? : Json → Option (List Member)
  | .array items => Member.ofItems? items
  | _ => none

def Member.ofItems? : List Json → Option (List Member)
  | [] => some []
  | v :: rest => do
      let m ← Member.ofJson? v
      let ms ← Member.ofItems? rest
      return m :: ms

end

def TypeDecl.ofJson? : Json → Option TypeDecl
  | .object entries => do
      let l ← (Json.object entries).layout? 4
      TypeDecl.ofLayout? l (Member.listUnder? entries)
  | .array items => do
      let l ← (Json.array items).layout? 4
      TypeDecl.ofLayout? l (items[3]?.bind Member.listOfJson?)
  | _ => none

end AccessorScan
