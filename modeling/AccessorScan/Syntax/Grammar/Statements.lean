import AccessorScan.Syntax.Grammar.Expressions

/-!
# `AccessorScan.Syntax.Grammar.Statements` — statements

Blocks, declared variables, and the statements that a keyword introduces. A statement that no
keyword introduces is tried as a declared variable first and as an expression then.
-/

namespace AccessorScan.Grammar

open Rule

def anyStatement : Rule Phrase := .phrase .statement

def anyBlock : Rule Phrase := .phrase .block

def block : Rule Phrase := .node "block" (.all [leftBrace, .many anyStatement, rightBrace])

/-! ## Variables -/

/-- A declared name with the dimensions after it. -/
def declaredName (except : List String) : Rule Phrase :=
  .all [.role .name (nameExcept except), maybe (.role .dimensions (.phrase .dimensions))]

/-- A declared name with what it starts as. -/
def declarator (except : List String) : Rule Phrase :=
  .node "variable_declarator" (.all [declaredName except,
    maybe (.all ["=", .any [.phrase .arrayInitializer, anyExpression]])])

def declarators (except : List String) : Rule Phrase :=
  sepBy1 "," (.role .declarator (declarator except))

/-- The variables that follow the modifiers read so far. -/
def declaredVariables (kind : String) (s : Site) (except : List String) : Rule Phrase :=
  .around kind none
    (.all [.role .type (.phrase (.type s)), .phrase (.declarators except), ";"])

def localVariable (s : Site) : Rule Phrase :=
  .any [.all [.phrase .modifiers, declaredVariables "local_variable_declaration" .modified []],
    declaredVariables "local_variable_declaration" s ["instanceof"]]

/-! ## Statements led by a keyword -/

/-- A statement that jumps, with the label it may name. -/
def jump (kind keyword : String) : Rule Phrase :=
  .node kind (.all [.lexeme (.exact keyword), maybe anyName, ";"])

def conditional : Rule Phrase :=
  .node "if_statement" (.all ["if", condition, anyStatement,
    .any [.all ["else", anyStatement], .next false ["else"]]])

def forStatement : Rule Phrase :=
  .node "for_statement" (.all ["for", "(",
    .any [.phrase (.localVariable .parenthesis), .all [sepBy "," anyExpression, ";"]],
    maybe anyExpression, ";", sepBy "," anyExpression, ")", .role .body anyStatement])

def eachStatement : Rule Phrase :=
  .node "enhanced_for_statement" (.all ["for", "(",
    .any [.all [.phrase .modifiers, .role .type (.phrase (.type .modified))],
      .role .type (.phrase (.type .parenthesis))],
    declaredName ["instanceof"], ":", anyExpression, ")", .role .body anyStatement])

def catchClause : Rule Phrase :=
  .node "catch_clause" (.all ["catch", "(",
    .node "catch_formal_parameter" (.all [maybe (.phrase .modifiers),
      .node "catch_type" (.all [.phrase (.type .parameter),
        .many (.all ["|", .phrase (.type .alone)])]),
      declaredName []]),
    ")", .role .body anyBlock])

def finallyClause : Rule Phrase := .node "finally_clause" (.all ["finally", anyBlock])

/-- The end of the clauses of a `try`. -/
def noMoreClauses : Rule Phrase := .next false ["catch", "finally"]

def tryStatement : Rule Phrase :=
  .node "try_statement" (.all ["try", .role .body anyBlock, .any [
    .all [.many (.phrase .catchClause), finallyClause],
    .all [repeated (.phrase .catchClause), noMoreClauses]]])

def resource : Rule Phrase :=
  .any [
    .node "resource" (.all [
      .any [.all [.phrase .modifiers, .role .type (.phrase (.type .modified))],
        .role .type (.phrase (.type .parenthesis))],
      declaredName [], "=", anyExpression]),
    .node "resource" (.all [.phrase .primary, .after ["identifier", "field_access"]])]

def tryWithResources : Rule Phrase :=
  .node "try_with_resources_statement" (.all ["try",
    .node "resource_specification" (.all ["(", sepBy1 ";" (.phrase .resource), maybe ";", ")"]),
    .role .body anyBlock, .many (.phrase .catchClause), .any [finallyClause, noMoreClauses]])

/-- The statements that a keyword of their own introduces. -/
def keywordStatements : List (Rule Phrase) :=
  [anyBlock, ";",
    .node "return_statement" (.all ["return", maybe anyExpression, ";"]),
    conditional,
    .node "while_statement" (.all ["while", condition, .role .body anyStatement]),
    eachStatement, forStatement,
    .node "do_statement"
      (.all ["do", .role .body anyStatement, "while", condition, ";"]),
    tryStatement, tryWithResources,
    .node "throw_statement" (.all ["throw", anyExpression, ";"]),
    jump "break_statement" "break", jump "continue_statement" "continue",
    .node "assert_statement"
      (.all ["assert", anyExpression, maybe (.all [":", anyExpression]), ";"]),
    .node "synchronized_statement"
      (.all ["synchronized", condition, .role .body anyBlock])]

/-! ## Other statements -/

def labelledStatement : Rule Phrase :=
  .node "labeled_statement"
    (.all [nameExcept Site.statement.keywords, ":", anyStatement])

/-- An expression as a statement. A switch needs no semicolon. -/
def expressionStatement : Rule Phrase :=
  .any [
    .all [.next false statementWords, anyExpression,
      .any [.around "expression_statement" none ";", .after ["switch_expression"]]],
    .phrase .switch]

def packageDeclaration : Rule Phrase :=
  .node "package_declaration" (.all [annotations, "package", .phrase .qualifiedName, ";"])

def importDeclaration : Rule Phrase :=
  .node "import_declaration" (.all ["import", maybe "static", .phrase .qualifiedName,
    maybe (.all [".", .lexeme (.named "asterisk" "*")]), ";"])

def statement : Rule Phrase :=
  .any (keywordStatements ++
    [.phrase .typeDeclaration, .phrase .moduleDeclaration, packageDeclaration, importDeclaration,
      labelledStatement, .phrase (.localVariable .statement), expressionStatement,
      .node "yield_statement" (.all ["yield", anyExpression, ";"])])

end AccessorScan.Grammar
