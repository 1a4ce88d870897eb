import AccessorScan.Accessor.Verdict
import AccessorScan.Proofs.Classification

/-!
# `Proofs.Outline` — what the detection looks at

Of a method the detection looks at the name, the names of its parameters, whether the result is `void`
or `boolean`, and the form of the body. How a type or a literal is written and on which line something
stands makes no difference.

## Contents
- `TypeRef.outline`, `Expression.outline`, `Statement.outline`, `Callable.outline`.
- `classify_method_outline`: a method is judged as its outline is.
- `classify_congr`: types with the same private fields judge members alike.
- `Verdict.withoutLine`.
-/

namespace AccessorScan

/-! ## Outlines -/

/-- Only `void` and `boolean` are told apart from other types. -/
def TypeRef.outline : TypeRef → TypeRef
  | .void => .void
  | .boolean => .boolean
  | .primitive _ => .reference ""
  | .reference _ => .reference ""

/-- A literal is one, whichever it is. -/
def Expression.outline : Expression → Expression
  | .literal _ => .literal ""
  | e => e

def Statement.outline : Statement → Statement
  | .result value => .result (value.map Expression.outline)
  | .assignment target value => .assignment target.outline value.outline
  | .expression e => .expression e.outline
  | .other kind => .other kind

/-- A parameter is told by its name. -/
def Parameter.outline (p : Parameter) : Parameter := ⟨p.name, .reference ""⟩

/-- What the detection looks at in a method. -/
def Callable.outline (c : Callable) : Callable where
  name := c.name
  parameters := c.parameters.map Parameter.outline
  result := c.result.outline
  modifiers := []
  body := c.body.map fun body => body.map Statement.outline
  line := 0

theorem TypeRef.outline_eq_void_iff {r : TypeRef} : r.outline = .void ↔ r = .void := by
  cases r <;> simp [outline]

theorem TypeRef.outline_eq_boolean_iff {r : TypeRef} : r.outline = .boolean ↔ r = .boolean := by
  cases r <;> simp [outline]

theorem Expression.fieldName?_outline (e : Expression) : e.outline.fieldName? = e.fieldName? := by
  cases e <;> rfl

theorem Callable.hasParameter_outline (c : Callable) (n : String) :
    c.outline.hasParameter n = c.hasParameter n := by
  simp [hasParameter, outline, Parameter.outline, Function.comp_def]

/-! ## Detection -/

namespace FieldIndex

variable {index : FieldIndex} {c : Callable} {p : String}

theorem refersTo_outline (e : Expression) : index.refersTo e.outline p = index.refersTo e p := by
  rw [refersTo, refersTo, Expression.fieldName?_outline]

theorem isGetter_outline (x : Prefix) (body : List Statement) :
    index.isGetter x c.outline (body.map Statement.outline) p = index.isGetter x c body p := by
  have hresult : (c.outline.result == .boolean) = (c.result == .boolean) := by
    rw [Bool.eq_iff_iff, beq_iff_eq, beq_iff_eq]
    exact TypeRef.outline_eq_boolean_iff
  have hparameters : c.outline.parameters.isEmpty = c.parameters.isEmpty := List.isEmpty_map
  unfold isGetter
  rw [hresult, hparameters]
  congr 1
  -- only a body of one statement that returns something counts
  match body with
  | [] => rfl
  | [.result (some e)] => exact refersTo_outline e
  | [.result none] => rfl
  | [.assignment _ _] => rfl
  | [.expression _] => rfl
  | [.other _] => rfl
  | s :: u :: rest => cases s <;> simp

theorem isSetter_outline (body : List Statement) :
    index.isSetter c.outline (body.map Statement.outline) p = index.isSetter c body p := by
  have hresult : (c.outline.result == .void) = (c.result == .void) := by
    rw [Bool.eq_iff_iff, beq_iff_eq, beq_iff_eq]
    exact TypeRef.outline_eq_void_iff
  have hparameters : c.outline.parameters.length = c.parameters.length := List.length_map _
  unfold isSetter
  rw [hresult, hparameters]
  congr 1
  match body with
  | [] => rfl
  | [.result _] => rfl
  | [.assignment (.name n) _] =>
      show (!c.outline.hasParameter n && _) = (!c.hasParameter n && _)
      rw [Callable.hasParameter_outline]
  | [.assignment (.selfField _) _] => rfl
  | [.assignment (.literal _) _] => rfl
  | [.assignment (.other _) _] => rfl
  | [.expression _] => rfl
  | [.other _] => rfl
  | s :: u :: rest => cases s <;> simp

theorem classifyMethod_outline : index.classifyMethod c.outline = index.classifyMethod c := by
  unfold classifyMethod
  cases hbody : c.body with
  | none => simp [Callable.outline, hbody]
  | some body =>
      have houtline : c.outline.body = some (body.map Statement.outline) := by
        rw [Callable.outline, hbody]
        rfl
      have hname : c.outline.name = c.name := rfl
      rw [houtline, hname]
      simp only [Option.bind_eq_bind, Option.bind_some, isGetter_outline, isSetter_outline]

end FieldIndex

/-- **Methods are judged by their outlines.** -/
theorem classify_method_outline (t : TypeDecl) {a b : Callable} (h : a.outline = b.outline) :
    classify t (.method a) = classify t (.method b) := by
  show (FieldIndex.ofType t).classifyMethod a = (FieldIndex.ofType t).classifyMethod b
  rw [← FieldIndex.classifyMethod_outline, h, FieldIndex.classifyMethod_outline]

/-- Of the type only its private fields count. -/
theorem classify_congr {t u : TypeDecl} (h : ∀ p, t.HasPrivateInstance p ↔ u.HasPrivateInstance p)
    (m : Member) : classify t m = classify u m := by
  have hgetter : ∀ p, IsGetterOf t m p ↔ IsGetterOf u m p := by
    intro p
    simp only [IsGetterOf, h]
  have hsetter : ∀ p, IsSetterOf t m p ↔ IsSetterOf u m p := by
    intro p
    simp only [IsSetterOf, h]
  refine Option.ext fun k => ?_
  cases k with
  | getter p => exact classify_eq_getter_iff.trans ((hgetter p).trans classify_eq_getter_iff.symm)
  | setter p => exact classify_eq_setter_iff.trans ((hsetter p).trans classify_eq_setter_iff.symm)

/-! ## Verdicts -/

/-- A verdict without the line on which its callable stands. -/
def Verdict.withoutLine (v : Verdict) : Verdict := { v with line := 0 }

end AccessorScan
