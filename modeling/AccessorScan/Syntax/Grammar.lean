import AccessorScan.Syntax.Grammar.Declarations

/-!
# `AccessorScan.Syntax.Grammar` — the grammar of the source language

The table that gives each phrase its rule, and the reading of a source by it.

## Contents
- `grammar`.
- `readProgram`: the tree of a list of lexemes, if they form a program.
-/

namespace AccessorScan

/-- The rule for each phrase. -/
def grammar : Phrase → Rule Phrase
  | .program => Grammar.program
  | .qualifiedName => Grammar.qualifiedName
  | .annotationUse => Grammar.annotationUse
  | .annotationArguments => Grammar.annotationArguments
  | .elementValue => Grammar.elementValue
  | .elementPair => Grammar.elementPair
  | .type s => Grammar.type s
  | .annotatedType s => Grammar.annotatedType s
  | .elementType s => Grammar.elementType s
  | .typeArguments => Grammar.typeArguments
  | .typeParameters => Grammar.typeParameters
  | .dimensions => Grammar.dimensions
  | .expression floor function => Grammar.expression floor function
  | .functionLiteral => Grammar.functionLiteral
  | .plainType => Grammar.plainType
  | .cast function => Grammar.cast function
  | .primary => Grammar.primary
  | .creation => Grammar.creation
  | .arguments => Grammar.arguments
  | .parenthesized => Grammar.parenthesized
  | .arrayInitializer => Grammar.arrayInitializer
  | .stringLiteral => Grammar.stringLiteral
  | .switch => Grammar.switch
  | .switchLabel => Grammar.switchLabel
  | .pattern => Grammar.pattern
  | .recordPattern => Grammar.recordPattern
  | .statement => Grammar.statement
  | .block => Grammar.block
  | .localVariable s => Grammar.localVariable s
  | .declarators except => Grammar.declarators except
  | .catchClause => Grammar.catchClause
  | .resource => Grammar.resource
  | .modifiers => Grammar.modifiers
  | .formalParameters s => Grammar.formalParameters s
  | .formalParameter s => Grammar.formalParameter s
  | .receiver s => Grammar.receiver s
  | .throws => Grammar.throws
  | .typeDeclaration => Grammar.typeDeclaration
  | .classBody => Grammar.classBody
  | .classMember => Grammar.classMember
  | .constructorBody => Grammar.constructorBody
  | .enumBody => Grammar.enumBody
  | .enumConstant => Grammar.enumConstant
  | .interfaceBody => Grammar.interfaceBody
  | .interfaceMember => Grammar.interfaceMember
  | .annotationTypeBody => Grammar.annotationTypeBody
  | .annotationTypeMember => Grammar.annotationTypeMember
  | .methodDeclaration s => Grammar.methodDeclaration s
  | .topLevel => Grammar.topLevel
  | .moduleDeclaration => Grammar.moduleDeclaration
  | .moduleDirective => Grammar.moduleDirective

/-- Enough steps down for an input of `n` lexemes: between two lexemes no rule goes down further
than this for each of them. -/
def readingFuel (n : Nat) : Nat := 400 * (n + 1)

/-- What the lexemes of a source read as. -/
def readProgram (ls : List Lexeme) : Outcome :=
  Rule.run grammar (readingFuel ls.length) (.phrase .program) [] ls

end AccessorScan
