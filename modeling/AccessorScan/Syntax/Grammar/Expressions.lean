import AccessorScan.Syntax.Grammar.Types

/-!
# `AccessorScan.Syntax.Grammar.Expressions` — expressions

An expression is an operand followed by operators that bind tighter than a floor. An operator takes
the operand read so far as its left side, and reads its right side with its own rank as the floor,
so that operators of equal rank group to the left. The conditional groups to the right. An
assignment reaches as far to the right as it can, whatever stands before its left side.

## Contents
- `binaryOperators` with their ranks, `expressionTail`, `expression`.
- Operands: function literals, casts, prefix operators, `primary` with its tails, `creation`.
- `switch` with its labels and patterns.
-/

namespace AccessorScan.Grammar

open Rule

/-- A whole expression. -/
def anyExpression : Rule Phrase := .phrase (.expression 0 true)

/-! ## Operators -/

/-- The binary operators, by rank; those that start with `>` are put together from several lexemes,
the longest first. -/
def binaryOperators : List (Nat × List (List String)) :=
  [(4, [["||"]]), (5, [["&&"]]), (6, [["|"]]), (7, [["^"]]), (8, [["&"]]), (9, [["=="], ["!="]]),
    (11, [["<<"], [">", ">", ">"], [">", ">"]]), (10, [["<="], [">", "="], ["<"], [">"]]),
    (12, [["+"], ["-"]]), (13, [["*"], ["/"], ["%"]])]

def conditionalRank : Nat := 3
def testRank : Nat := 10
def castRank : Nat := 14
def unaryRank : Nat := 15

def assignmentOperators : List (List String) :=
  [["="], ["+="], ["-="], ["*="], ["/="], ["&="], ["|="], ["^="], ["%="], ["<<="],
    [">", ">", ">", "="], [">", ">", "="]]

/-- One operator out of a list of spellings. -/
def operator (spellings : List (List String)) : Rule Phrase :=
  .any (spellings.map fun parts => .joined parts)

/-- What a value is tested to be. -/
def testTail : Rule Phrase :=
  .around "instanceof_expression" (some .left) (.all ["instanceof", maybe "final",
    .any [.phrase .recordPattern,
      .all [.phrase (.annotatedType .test), maybe (nameExcept ["instanceof"])]]])

/-- An operator that binds tighter than `floor`, and what stands on its right. -/
def expressionTail (floor : Nat) (function : Bool) : Rule Phrase :=
  .any ((binaryOperators.filter fun (rank, _) => rank > floor).map (fun (rank, spellings) =>
      .around "binary_expression" (some .left)
        (.all [.role .operator (operator spellings), .phrase (.expression rank function)])) ++
    (if testRank > floor then [testTail] else []) ++
    (if unaryRank > floor then [.around "update_expression" none (oneOf ["++", "--"])] else []) ++
    (if conditionalRank ≥ floor then
      [.around "ternary_expression" none
        (.all ["?", anyExpression, ":", .phrase (.expression conditionalRank function)])]
     else []))

/-! ## Operands -/

def prefixed (kind : String) (texts : List String) (function : Bool) : Rule Phrase :=
  .node kind (.all [.role .operator (oneOf texts), .phrase (.expression unaryRank function)])

/-- What follows a name, a field or an element to which a value is assigned. -/
def assignmentTail (function : Bool) : Rule Phrase :=
  .all [.after ["identifier", "field_access", "array_access"],
    .around "assignment_expression" (some .left) (.all [
      .role .operator (operator assignmentOperators),
      .role .right (.phrase (.expression 0 function))])]

def expression (floor : Nat) (function : Bool) : Rule Phrase :=
  .all [
    .any ((if function then [.phrase .functionLiteral] else []) ++
      [prefixed "update_expression" ["++", "--"] function,
        prefixed "unary_expression" ["+", "-", "!", "~"] function,
        .phrase .switch, .phrase (.cast function),
        .all [.phrase .primary, maybe (assignmentTail function)]]),
    .many (expressionTail floor function)]

def functionLiteral : Rule Phrase :=
  .node "lambda_expression" (.all [
    .role .parameters (.any [nameExcept expressionKeywords,
      .node "inferred_parameters"
        (.all ["(", .next false strictModifierWords, sepBy1 "," anyName, ")", .next true ["->"]]),
      .phrase (.formalParameters .parenthesis)]),
    "->", .role .body (.any [.phrase .block, anyExpression])])

/-- A name with points between its words, as a type. -/
def plainType : Rule Phrase :=
  .all [.lexeme (.word "type_identifier" Site.parenthesis.keywords),
    .many (.around "scoped_type_identifier" none
      (.all [".", .lexeme (.word "type_identifier" Site.parenthesis.keywordsAfterPoint)]))]

/-- The kinds of type that no expression in parentheses looks like. -/
def distinctTypes : List String :=
  ["void_type", "boolean_type", "integral_type", "floating_point_type", "generic_type",
    "array_type", "annotated_type"]

/-- A cast. After a plain name in parentheses a sign or a test is a binary operator. -/
def cast (function : Bool) : Rule Phrase :=
  .node "cast_expression" (.all ["(", .any [
    .all [.phrase .plainType, ")", .next false ["+", "-", "instanceof"],
      .phrase (.expression castRank function)],
    .all [.phrase (.annotatedType .parenthesis), .after distinctTypes, ")",
      .phrase (.expression castRank function)],
    .all [sepBy1 "&" (.phrase (.annotatedType .parenthesis)), ")", .next false ["instanceof"],
      .any ((if function then [.phrase .functionLiteral] else []) ++ [.phrase .primary])]]])

/-- The types and the arguments that `new` takes. -/
def creationType : Rule Phrase :=
  .all ["new", annotations, maybe (.all [.phrase .typeArguments, annotations]),
    .role .type (.phrase (.elementType .alone))]

def creationArguments : Rule Phrase :=
  .all [.phrase .arguments, maybe (.role .body (.phrase .classBody))]

def creation : Rule Phrase :=
  .all [creationType,
    .any [.around "object_creation_expression" none creationArguments,
      .around "array_creation_expression" none (.any [
        .all [repeated (.node "dimensions_expr" (.all [annotations, "[", anyExpression, "]"])),
          maybe (.phrase .dimensions)],
        .all [.phrase .dimensions, .phrase .arrayInitializer]])]]

def arguments : Rule Phrase := .node "argument_list" (.all ["(", sepBy "," anyExpression, ")"])

/-- An expression in parentheses as a whole. A modifier would start parameters instead, unless it
may be a name too. -/
def parenthesized : Rule Phrase :=
  .node "parenthesized_expression" (.all ["(", .next false strictModifierWords, anyExpression, ")"])

/-- The parentheses after a keyword, which hold nothing but an expression. -/
def condition : Rule Phrase :=
  .node "parenthesized_expression" (.all ["(", anyExpression, ")"])

def arrayInitializer : Rule Phrase :=
  .node "array_initializer"
    (.all [leftBrace, sepBy "," (.any [.phrase .arrayInitializer, anyExpression]), maybe ",",
      rightBrace])

/-- A string literal, with the expressions embedded in it. -/
def stringLiteral : Rule Phrase :=
  .node "string_literal" (.any [.lexeme (.piece .string),
    .all [.lexeme (.piece .stringHead), anyExpression,
      .many (.all [.lexeme (.piece .stringMiddle), anyExpression]), .lexeme (.piece .stringTail)]])

/-! ## Primary expressions -/

def methodTail : Rule Phrase :=
  .around "method_invocation" (some .object) (.all [".",
    maybe (.all [.lexeme (.named "super" "super"), "."]), maybe (.phrase .typeArguments),
    .role .name (nameExcept ["this", "super", "new"]), .phrase .arguments])

def fieldTail : Rule Phrase :=
  .around "field_access" (some .object) (.all [
    maybe (.all [".", .lexeme (.named "super" "super")]), ".",
    .role .field (.any [.lexeme (.named "this" "this"), nameExcept ["super", "new"]])])

def referenceTail : Rule Phrase :=
  .around "method_reference" (some .object) (.all ["::", maybe (.phrase .typeArguments),
    .any ["new", anyName]])

def primaryTail : Rule Phrase :=
  .any [methodTail,
    .around "object_creation_expression" (some .object)
      (.all [".", creationType, creationArguments]),
    fieldTail,
    .around "template_expression" (some .object) (.all [".", .phrase .stringLiteral]),
    .around "array_access" (some .object) (.all ["[", anyExpression, "]"]),
    referenceTail]

/-- A type used as a value: its class, or one of its methods. With annotations it has no class. -/
def typeValue : Rule Phrase :=
  .any [
    .all [.phrase (.type .expression),
      .any [.around "class_literal" none (.all [".", "class"]), referenceTail]],
    .all [.next true ["@"], .phrase (.annotatedType .alone), referenceTail]]

def primary : Rule Phrase :=
  .all [
    .any [.lexeme .literal, .phrase .stringLiteral,
      .lexeme (.named "true" "true"), .lexeme (.named "false" "false"),
      .lexeme (.named "null_literal" "null"), .lexeme (.named "this" "this"),
      .phrase .parenthesized, .phrase .creation,
      .all [.lexeme (.named "super" "super"), .any [methodTail, fieldTail, referenceTail]],
      .node "method_invocation"
        (.all [.role .name (nameExcept expressionKeywords), .phrase .arguments]),
      typeValue,
      nameExcept expressionKeywords],
    .many primaryTail]

/-! ## Switches -/

def switch : Rule Phrase :=
  .node "switch_expression" (.all ["switch", condition, .role .body switchBlock])
where
  switchBlock : Rule Phrase :=
    .node "switch_block" (.all [leftBrace, .any [
      .all [.many (.node "switch_rule" (.all [.phrase .switchLabel, "->", switchResult])),
        rightBrace],
      .all [.many switchGroup, rightBrace]]])
  switchResult : Rule Phrase :=
    .any [.phrase .block, .node "throw_statement" (.all ["throw", anyExpression, ";"]),
      .node "expression_statement" (.all [anyExpression, ";"])]
  switchGroup : Rule Phrase :=
    .node "switch_block_statement_group"
      (.all [repeated (.all [.phrase .switchLabel, ":"]), .many (.phrase .statement)])

def switchLabel : Rule Phrase :=
  .node "switch_label" (.any [
    .all ["case", .any [
      .all [.phrase .pattern, maybe switchGuard, .next true ["->", ":"]],
      .all [sepBy1 "," (.phrase (.expression 0 false)), maybe switchGuard]]],
    "default"])
where
  switchGuard : Rule Phrase := .node "guard" (.all ["when", .phrase (.expression 0 false)])

def pattern : Rule Phrase :=
  .node "pattern" (.any [.phrase .recordPattern,
    .node "type_pattern"
      (.all [.phrase (.type .expression), nameExcept ["when", "instanceof"]])])

def recordPattern : Rule Phrase :=
  .node "record_pattern" (.all [
    .any [.all [.lexeme (.word "identifier" expressionKeywords), .next true ["("]],
      .all [.phrase (.elementType .expression), .after ["generic_type"]]],
    .node "record_pattern_body" (.all ["(", sepBy "," (.any [.phrase .recordPattern,
      .node "record_pattern_component" (.any [.all [.phrase (.type .alone), anyName],
        .lexeme (.named "underscore_pattern" "_")])]), ")"])])

end AccessorScan.Grammar
