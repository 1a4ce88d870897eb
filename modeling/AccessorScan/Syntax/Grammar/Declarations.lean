import AccessorScan.Syntax.Grammar.Statements

/-!
# `AccessorScan.Syntax.Grammar.Declarations` — types, members and modules

Declarations start with modifiers, which all their forms share: a rule that follows them takes them
into the node it makes.
-/

namespace AccessorScan.Grammar

open Rule

def modifiers : Rule Phrase :=
  .node "modifiers" (repeated (.any [.phrase .annotationUse, oneOf modifierWords,
    .joined ["non", "-", "sealed"]]))

/-! ## Parameters -/

def receiver (s : Site) : Rule Phrase :=
  .node "receiver_parameter" (.all [annotations, .phrase (.type s), .many (.all [anyName, "."]),
    .lexeme (.named "this" "this")])

/-- What follows the type of a parameter. -/
def parameterTail (except : List String) : Rule Phrase :=
  .any [.around "formal_parameter" none (declaredName except),
    .around "spread_parameter" none (.all ["...", annotations, declarator []])]

/-- A parameter. Only after modifiers may it be named like the receiver. -/
def formalParameter (s : Site) : Rule Phrase :=
  .any [
    .all [.phrase .modifiers, .role .type (.phrase (.type .parameter)), parameterTail []],
    .all [.role .type (.phrase (.type s)), parameterTail ["this"]]]

/-- Parameters with commas between them; the first one may start at the place `s`. -/
def formalParameters (s : Site) : Rule Phrase :=
  .node "formal_parameters" (.all ["(", .any [
    .all [.phrase (.formalParameter s),
      .many (.all [",", .phrase (.formalParameter .parameter)]), ")"],
    .all [.phrase (.receiver s), ",", sepBy "," (.phrase (.formalParameter .parameter)), ")"],
    .all [.phrase (.receiver s), ")"],
    ")"]])

def throws : Rule Phrase :=
  .node "throws" (.all ["throws", sepBy1 "," (.phrase (.annotatedType .alone))])

/-! ## Types -/

/-- A named clause of a type's head. -/
def headClause (kind keyword : String) : Rule Phrase :=
  maybe (.node kind (.all [.lexeme (.exact keyword), typeList]))

def declaredTypeName : Rule Phrase := .role .name anyName

def classDeclaration : Rule Phrase :=
  .around "class_declaration" none (.all ["class", declaredTypeName,
    maybe (.phrase .typeParameters),
    maybe (.node "superclass" (.all ["extends", .phrase (.annotatedType .alone)])),
    headClause "super_interfaces" "implements", headClause "permits" "permits",
    .role .body (.phrase .classBody)])

def interfaceDeclaration : Rule Phrase :=
  .around "interface_declaration" none (.all ["interface", declaredTypeName,
    maybe (.phrase .typeParameters), headClause "extends_interfaces" "extends",
    headClause "permits" "permits", .role .body (.phrase .interfaceBody)])

def enumDeclaration : Rule Phrase :=
  .around "enum_declaration" none (.all ["enum", declaredTypeName,
    headClause "super_interfaces" "implements", .role .body (.phrase .enumBody)])

def recordDeclaration : Rule Phrase :=
  .around "record_declaration" none (.all ["record", declaredTypeName,
    maybe (.phrase .typeParameters), .role .parameters (.phrase (.formalParameters .parameter)),
    headClause "super_interfaces" "implements", .role .body (.phrase .classBody)])

def annotationTypeDeclaration : Rule Phrase :=
  .around "annotation_type_declaration" none
    (.all ["@interface", declaredTypeName, .role .body (.phrase .annotationTypeBody)])

/-- The declarations of types, after modifiers. -/
def typeDeclarations : List (Rule Phrase) :=
  [classDeclaration, interfaceDeclaration, enumDeclaration, recordDeclaration,
    annotationTypeDeclaration]

def typeDeclaration : Rule Phrase :=
  .all [maybe (.phrase .modifiers), .any typeDeclarations]

/-! ## Members -/

/-- A method after its modifiers. -/
def methodAfterModifiers (s : Site) : Rule Phrase :=
  .around "method_declaration" none (.all [
    .any [.all [.phrase .typeParameters, annotations, .role .type (.phrase (.type .alone))],
      .role .type (.phrase (.type s))],
    .role .name anyName, .role .parameters (.phrase (.formalParameters .parameter)),
    maybe (.role .dimensions (.phrase .dimensions)), maybe (.phrase .throws),
    .any [.role .body anyBlock, ";"]])

def methodDeclaration (s : Site) : Rule Phrase :=
  .any [.all [.phrase .modifiers, methodAfterModifiers .modified], methodAfterModifiers s]

def constructor : Rule Phrase :=
  .around "constructor_declaration" none (.all [maybe (.phrase .typeParameters),
    .role .name (nameExcept Site.member.keywords),
    .role .parameters (.phrase (.formalParameters .parameter)), maybe (.phrase .throws),
    .role .body (.phrase .constructorBody)])

def compactConstructor : Rule Phrase :=
  .around "compact_constructor_declaration" none
    (.all [.role .name (nameExcept Site.member.keywords), .role .body anyBlock])

def classMember : Rule Phrase :=
  .any [";", anyBlock,
    .node "static_initializer" (.all ["static", anyBlock]),
    .all [maybe (.phrase .modifiers), .any (typeDeclarations ++
      [constructor, compactConstructor, methodAfterModifiers .member,
        declaredVariables "field_declaration" .member []])]]

def classBody : Rule Phrase :=
  .node "class_body" (.all [leftBrace, .many (.phrase .classMember), rightBrace])

def constructorBody : Rule Phrase :=
  .node "constructor_body" (.all [leftBrace, maybe invocation, .many anyStatement, rightBrace])
where
  /-- The call of another constructor. -/
  invocation : Rule Phrase :=
    .node "explicit_constructor_invocation" (.all [
      .any [
        .all [maybe (.phrase .typeArguments),
          .any [.lexeme (.named "this" "this"), .lexeme (.named "super" "super")]],
        .all [.role .object (.phrase .primary), ".", maybe (.phrase .typeArguments),
          .lexeme (.named "super" "super")]],
      .phrase .arguments, ";"])

def enumConstant : Rule Phrase :=
  .node "enum_constant" (.all [maybe (.phrase .modifiers), .role .name (nameExcept modifierWords),
    maybe (.phrase .arguments), maybe (.role .body (.phrase .classBody))])

def enumBody : Rule Phrase :=
  .node "enum_body" (.all [leftBrace, sepBy "," (.phrase .enumConstant), maybe ",",
    maybe (.node "enum_body_declarations" (.all [";", .many (.phrase .classMember)])), rightBrace])

def interfaceMember : Rule Phrase :=
  .any [";", .all [maybe (.phrase .modifiers), .any (typeDeclarations ++
    [methodAfterModifiers .member, declaredVariables "constant_declaration" .member []])]]

def interfaceBody : Rule Phrase :=
  .node "interface_body" (.all [leftBrace, .many (.phrase .interfaceMember), rightBrace])

def annotationTypeMember : Rule Phrase :=
  .any [";", .all [maybe (.phrase .modifiers), .any
    [classDeclaration, interfaceDeclaration, enumDeclaration, annotationTypeDeclaration,
      element, declaredVariables "constant_declaration" .member []]]]
where
  element : Rule Phrase :=
    .around "annotation_type_element_declaration" none (.all [
      .role .type (.phrase (.type .member)), .role .name anyName, "(", ")",
      maybe (.role .dimensions (.phrase .dimensions)),
      maybe (.all ["default", .phrase .elementValue]), ";"])

def annotationTypeBody : Rule Phrase :=
  .node "annotation_type_body"
    (.all [leftBrace, .many (.phrase .annotationTypeMember), rightBrace])

/-! ## Modules -/

def moduleDirective : Rule Phrase :=
  .any [
    .node "requires_module_directive" (.all ["requires",
      .many (.node "requires_modifier"
        (.all [oneOf ["transitive", "static"], .next false [";", "."]])),
      .phrase .qualifiedName, ";"]),
    .node "exports_module_directive" (targets "exports" "to" true),
    .node "opens_module_directive" (targets "opens" "to" true),
    .node "uses_module_directive" (.all ["uses", .phrase .qualifiedName, ";"]),
    .node "provides_module_directive" (targets "provides" "with" false)]
where
  /-- A name and the names it is meant for. -/
  targets (keyword link : String) (optional : Bool) : Rule Phrase :=
    let names : Rule Phrase :=
      .all [.lexeme (.exact link), sepBy1 "," (.phrase .qualifiedName)]
    .all [.lexeme (.exact keyword), .phrase .qualifiedName,
      if optional then maybe names else names, ";"]

def moduleDeclaration : Rule Phrase :=
  .node "module_declaration" (.all [annotations, maybe "open", "module",
    .role .name (.phrase .qualifiedName),
    .role .body (.node "module_body"
      (.all [leftBrace, .many (.phrase .moduleDirective), rightBrace]))])

/-! ## Sources -/

def topLevel : Rule Phrase := .any [.phrase (.methodDeclaration .statement), anyStatement]

/-- Everything up to the end. -/
def program : Rule Phrase := .all [.many (.phrase .topLevel), .finish]

end AccessorScan.Grammar
