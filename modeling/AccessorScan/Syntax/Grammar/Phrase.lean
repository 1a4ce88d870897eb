import AccessorScan.Syntax.Rule

/-!
# `AccessorScan.Syntax.Grammar.Phrase` — the phrases of the source language

The names of the grammar's rules, and which words are keywords where. A word is a keyword only where
a keyword may stand, so each place has its own set of words that cannot be identifiers there.

## Contents
- The families of words: `modifierWords`, `primitiveWords`, `valueWords`, ….
- `Site`: the places at which a type may start, with the words that are keywords there.
- `Phrase`.
-/

namespace AccessorScan

/-! ## Words -/

def leftBrace : String := "\x7b"
def rightBrace : String := "\x7d"

def modifierWords : List String :=
  ["public", "protected", "private", "abstract", "static", "final", "strictfp", "default",
    "synchronized", "native", "transient", "volatile", "sealed"]

/-- The modifiers that are never names where a modifier may stand. -/
def strictModifierWords : List String := modifierWords.filter (· != "sealed")

/-- The primitive types and `void`. -/
def primitiveWords : List String :=
  ["byte", "short", "int", "long", "char", "float", "double", "boolean", "void"]

/-- The words that start an expression and name nothing. -/
def valueWords : List String := ["new", "this", "super", "true", "false", "null", "switch"]

/-- The words that are identifiers in expressions and keywords elsewhere. -/
def reservedWords : List String := ["open", "module", "record", "with", "sealed", "yield"]

/-- The words that start a declaration of a type. -/
def declarationWords : List String := ["class", "interface", "enum", "record"]

/-- The words that start a statement which is neither an expression nor a declared variable. -/
def statementWords : List String :=
  ["assert", "break", "class", "continue", "do", "enum", "for", "if", "import", "interface",
    "package", "return", "synchronized", "throw", "try", "while", "public", "protected", "private",
    "abstract", "static", "final", "strictfp", "default", "native", "transient", "volatile"]

/-- The words that are no identifiers in an expression. -/
def expressionKeywords : List String := valueWords ++ primitiveWords

/-! ## Places -/

/-- A place at which a type may start, by what else may start there. -/
inductive Site where
  /-- A statement. -/
  | statement
  /-- A member of a type, or what follows modifiers. -/
  | member
  /-- What follows the modifiers of a statement. -/
  | modified
  /-- An expression. -/
  | expression
  /-- An expression or modifiers, as after a parenthesis. -/
  | parenthesis
  /-- A parameter. -/
  | parameter
  /-- What an object is tested to be. -/
  | test
  /-- Nothing else. -/
  | alone
  deriving DecidableEq, Repr

namespace Site

/-- The words that cannot be the first name of a type here. -/
def keywords : Site → List String
  | statement => statementWords ++ valueWords ++ primitiveWords ++ reservedWords
  | member => declarationWords ++ modifierWords ++ primitiveWords
  | modified => declarationWords ++ modifierWords ++ primitiveWords ++ ["module", "open", "package"]
  | expression => expressionKeywords ++ reservedWords
  | parenthesis => expressionKeywords ++ reservedWords ++ modifierWords
  | parameter => modifierWords ++ primitiveWords
  | test => "final" :: primitiveWords ++ reservedWords
  | alone => primitiveWords

/-- The words that cannot follow a point in the name of a type here. -/
def keywordsAfterPoint : Site → List String
  | statement | expression | parenthesis => ["class", "this", "super", "new"]
  | member | modified | parameter | test | alone => []

end Site

/-! ## Phrases -/

/-- The phrases of the language. -/
inductive Phrase where
  | program
  -- names and annotations
  | qualifiedName
  | annotationUse
  | annotationArguments
  | elementValue
  | elementPair
  -- types
  | type (site : Site)
  | annotatedType (site : Site)
  /-- A type without dimensions of its own. -/
  | elementType (site : Site)
  | typeArguments
  | typeParameters
  | dimensions
  -- expressions
  /-- An expression whose operators bind tighter than `floor`. A bare function literal is part of
  it only if `function` is set, since in a label its arrow would be taken for the label's. -/
  | expression (floor : Nat) (function : Bool)
  | functionLiteral
  | plainType
  | cast (function : Bool)
  | primary
  | creation
  | arguments
  | parenthesized
  | arrayInitializer
  | stringLiteral
  | switch
  | switchLabel
  | pattern
  | recordPattern
  -- statements
  | statement
  | block
  | localVariable (site : Site)
  | declarators (except : List String)
  | catchClause
  | resource
  -- declarations
  | modifiers
  | formalParameters (site : Site)
  | formalParameter (site : Site)
  | receiver (site : Site)
  | throws
  | typeDeclaration
  | classBody
  | classMember
  | constructorBody
  | enumBody
  | enumConstant
  | interfaceBody
  | interfaceMember
  | annotationTypeBody
  | annotationTypeMember
  | methodDeclaration (site : Site)
  | topLevel
  | moduleDeclaration
  | moduleDirective
  deriving DecidableEq, Repr

end AccessorScan
