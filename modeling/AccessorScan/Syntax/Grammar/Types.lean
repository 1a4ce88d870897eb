import AccessorScan.Syntax.Grammar.Phrase

/-!
# `AccessorScan.Syntax.Grammar.Types` — names, annotations and types

The rules for qualified names, annotations, types with their arguments and dimensions, and type
parameters.
-/

namespace AccessorScan.Grammar

open Rule

/-- Any word. -/
def anyName : Rule Phrase := .lexeme (.word "identifier" [])

/-- Any word but these. -/
def nameExcept (except : List String) : Rule Phrase := .lexeme (.word "identifier" except)

/-- A keyword that is a type of the given kind. -/
def primitive (kind : String) (texts : List String) : Rule Phrase :=
  .any (texts.map fun t => .lexeme (.named kind t))

def primitiveType : Rule Phrase :=
  .any [primitive "void_type" ["void"], primitive "boolean_type" ["boolean"],
    primitive "integral_type" ["byte", "short", "int", "long", "char"],
    primitive "floating_point_type" ["float", "double"]]

/-- Names with points between them. -/
def qualifiedName : Rule Phrase :=
  .all [anyName, .many (.around "scoped_identifier" none (.all [".", anyName]))]

def annotationUse : Rule Phrase :=
  .all ["@", .phrase .qualifiedName,
    .any [.around "annotation" none (.phrase .annotationArguments),
      .around "marker_annotation" none (.all [])]]

def annotations : Rule Phrase := .many (.phrase .annotationUse)

def annotationArguments : Rule Phrase :=
  .node "annotation_argument_list" (.all ["(",
    .any [.all [sepBy "," (.phrase .elementPair), ")"], .all [.phrase .elementValue, ")"]]])

def elementPair : Rule Phrase :=
  .node "element_value_pair" (.all [anyName, "=", .phrase .elementValue])

def elementValue : Rule Phrase :=
  .any [.phrase .annotationUse,
    .node "element_value_array_initializer"
      (.all [leftBrace, sepBy "," (.phrase .elementValue), maybe ",", rightBrace]),
    .phrase (.expression 0 true)]

/-! ## Types -/

/-- The type arguments of the type read so far, if there are any. -/
def genericArguments : Rule Phrase :=
  maybe (.around "generic_type" none (.phrase .typeArguments))

/-- A type without dimensions. -/
def elementType (s : Site) : Rule Phrase :=
  .any [primitiveType,
    .all [.lexeme (.word "type_identifier" s.keywords), genericArguments,
      .many (.all [
        .around "scoped_type_identifier" none
          (.all [".", annotations, .lexeme (.word "type_identifier" s.keywordsAfterPoint)]),
        genericArguments])]]

def type (s : Site) : Rule Phrase :=
  .all [.phrase (.elementType s), maybe (.around "array_type" none (.phrase .dimensions))]

def annotatedType (s : Site) : Rule Phrase :=
  .any [.phrase (.type s),
    .node "annotated_type" (.all [repeated (.phrase .annotationUse), .phrase (.type .alone)])]

def wildcard : Rule Phrase :=
  .node "wildcard" (.all [annotations, "?",
    maybe (.all [oneOf ["extends", "super"], .phrase (.annotatedType .alone)])])

def typeArguments : Rule Phrase :=
  .node "type_arguments"
    (.all ["<", sepBy "," (.any [.phrase (.annotatedType .alone), wildcard]), ">"])

def dimensions : Rule Phrase :=
  .node "dimensions" (repeated (.all [annotations, "[", "]"]))

def typeParameter : Rule Phrase :=
  .node "type_parameter" (.all [annotations, .lexeme (.word "type_identifier" []),
    maybe (.node "type_bound" (.all ["extends", sepBy1 "&" (.phrase (.annotatedType .alone))]))])

def typeParameters : Rule Phrase :=
  .node "type_parameters" (.all ["<", sepBy1 "," typeParameter, ">"])

/-- Types with commas between them. -/
def typeList : Rule Phrase := .node "type_list" (sepBy1 "," (.phrase (.annotatedType .alone)))

end AccessorScan.Grammar
