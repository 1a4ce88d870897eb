import AccessorScan.Accessor.Classify
import AccessorScan.Proofs.FieldIndex
import AccessorScan.Proofs.Naming

/-!
# `Proofs.Classification` — which members are accessors, said without the index

`classify` prepares an index, splits the name and matches on the body. Here the verdict is said by what
stands in the declaration: name, parameters, result, the one statement of the body, and the first field
of the property's name.

## Contents
- `IsGetterOf`, `IsSetterOf`: the shapes.
- `isGetter_iff`, `isSetter_iff`: the tests against an index of the type.
- `classify_eq_getter_iff`, `classify_eq_setter_iff`, `classify_exact`.
-/

namespace AccessorScan

/-- The expression is the name `p`, bare or qualified by the current object. -/
def Expression.Refers (e : Expression) (p : String) : Prop := e = .name p ∨ e = .selfField p

/-- The member is a method whose name speaks of `p` and whose whole body returns `p`, a private
    instance field of `t`. -/
def IsGetterOf (t : TypeDecl) (m : Member) (p : String) : Prop :=
  ∃ (c : Callable) (e : Expression), m = .method c ∧
    (Prefix.get.Names c.name p ∨ Prefix.is.Names c.name p ∧ c.result = .boolean) ∧
    c.parameters = [] ∧ c.body = some [.result (some e)] ∧ e.Refers p ∧ t.HasPrivateInstance p

/-- The member is a method whose name speaks of `p` and whose whole body assigns `p`, a private
    instance field of `t`. A bare target must not be the parameter. -/
def IsSetterOf (t : TypeDecl) (m : Member) (p : String) : Prop :=
  ∃ (c : Callable) (a : Parameter) (target value : Expression), m = .method c ∧
    Prefix.set.Names c.name p ∧ c.result = .void ∧ c.parameters = [a] ∧
    c.body = some [.assignment target value] ∧
    (target = .selfField p ∨ target = .name p ∧ p ≠ a.name) ∧ t.HasPrivateInstance p

/-! ## The tests against an index -/

theorem Expression.fieldName?_eq_some_iff {e : Expression} {p : String} :
    e.fieldName? = some p ↔ e.Refers p := by
  cases e <;> simp [fieldName?, Refers]

/-- With one parameter, exactly the other names are no parameters. -/
theorem Callable.hasParameter_eq_false_iff {c : Callable} {a : Parameter} {n : String}
    (ha : c.parameters = [a]) : c.hasParameter n = false ↔ n ≠ a.name := by
  unfold hasParameter
  rw [ha, List.any_cons, List.any_nil, Bool.or_false, beq_eq_false_iff_ne]
  exact ne_comm

namespace FieldIndex

theorem refersTo_iff {t : TypeDecl} {e : Expression} {p : String} :
    (ofType t).refersTo e p = true ↔ e.Refers p ∧ t.HasPrivateInstance p := by
  simp only [refersTo, Bool.and_eq_true, beq_iff_eq, Expression.fieldName?_eq_some_iff,
    privateField?_ofType_isSome_iff]

theorem isGetter_iff {t : TypeDecl} {x : Prefix} {c : Callable} {body : List Statement}
    {p : String} :
    (ofType t).isGetter x c body p = true ↔
      (x = .is → c.result = .boolean) ∧ c.parameters = [] ∧
        ∃ e, body = [.result (some e)] ∧ e.Refers p ∧ t.HasPrivateInstance p := by
  unfold isGetter
  have hresult : (x != .is || c.result == .boolean) = true ↔ (x = .is → c.result = .boolean) := by
    rw [Bool.or_eq_true, bne_iff_ne, beq_iff_eq, Decidable.imp_iff_not_or]
  rw [Bool.and_eq_true, Bool.and_eq_true, hresult, List.isEmpty_iff, and_assoc]
  refine and_congr_right fun _ => and_congr_right fun _ => ?_
  constructor
  · intro h
    split at h
    next e => exact ⟨e, rfl, refersTo_iff.mp h⟩
    next => cases h
  · rintro ⟨e, rfl, h⟩
    exact refersTo_iff.mpr h

/-- The parameter shadows the field: with one parameter `a`, a bare target refers to the property only
    if it is not `a`. -/
theorem isSetter_iff {t : TypeDecl} {c : Callable} {body : List Statement} {p : String} :
    (ofType t).isSetter c body p = true ↔
      c.result = .void ∧ ∃ a target value, c.parameters = [a] ∧
        body = [.assignment target value] ∧
        (target = .selfField p ∨ target = .name p ∧ p ≠ a.name) ∧ t.HasPrivateInstance p := by
  unfold isSetter
  rw [Bool.and_eq_true, Bool.and_eq_true, beq_iff_eq, beq_iff_eq, List.length_eq_one_iff, and_assoc]
  refine and_congr_right fun _ => ?_
  constructor
  · rintro ⟨⟨a, ha⟩, h⟩
    split at h
    next n value =>
      rw [Bool.and_eq_true, Bool.not_eq_true', Callable.hasParameter_eq_false_iff ha,
        refersTo_iff] at h
      obtain ⟨hne, hrefers, hfield⟩ := h
      obtain rfl : n = p := by simpa [Expression.Refers] using hrefers
      exact ⟨a, _, value, ha, rfl, .inr ⟨rfl, hne⟩, hfield⟩
    next target value hbare =>
      -- bare targets went to the case before, so this one is qualified
      obtain ⟨hrefers, hfield⟩ := refersTo_iff.mp h
      rcases hrefers with rfl | rfl
      · exact absurd rfl (hbare p)
      · exact ⟨a, _, value, ha, rfl, .inl rfl, hfield⟩
    next => cases h
  · rintro ⟨a, target, value, ha, rfl, htarget, hfield⟩
    refine ⟨⟨a, ha⟩, ?_⟩
    rcases htarget with rfl | ⟨rfl, hne⟩
    · exact refersTo_iff.mpr ⟨.inr rfl, hfield⟩
    · show (!c.hasParameter p && (ofType t).refersTo (.name p) p) = true
      rw [(Callable.hasParameter_eq_false_iff ha).mpr hne, refersTo_iff.mpr ⟨.inl rfl, hfield⟩]
      rfl

end FieldIndex

/-! ## The verdict -/

/-- A method is an accessor only by a body and a name that splits; the prefix decides which test
    applies. -/
theorem classifyMethod_eq_some_iff {index : FieldIndex} {c : Callable} {k : Accessor} :
    index.classifyMethod c = some k ↔
      ∃ body x p, c.body = some body ∧ Prefix.Names x c.name p ∧
        (x = .set ∧ index.isSetter c body p = true ∧ k = .setter p ∨
          x ≠ .set ∧ index.isGetter x c body p = true ∧ k = .getter p) := by
  unfold FieldIndex.classifyMethod
  simp only [Option.bind_eq_bind, Option.bind_eq_some_iff, Prod.exists, splitName_eq_some_iff]
  constructor
  · rintro ⟨body, hbody, x, p, hnames, h⟩
    refine ⟨body, x, p, hbody, hnames, ?_⟩
    cases x with
    | set =>
        rw [Option.ite_none_right_eq_some] at h
        exact .inl ⟨rfl, h.1, (Option.some.inj h.2).symm⟩
    | is =>
        rw [Option.ite_none_right_eq_some] at h
        exact .inr ⟨by decide, h.1, (Option.some.inj h.2).symm⟩
    | get =>
        rw [Option.ite_none_right_eq_some] at h
        exact .inr ⟨by decide, h.1, (Option.some.inj h.2).symm⟩
  · rintro ⟨body, x, p, hbody, hnames, h⟩
    refine ⟨body, hbody, x, p, hnames, ?_⟩
    cases x <;> simp_all

/-- Members other than methods are no accessors. -/
theorem classify_eq_some_iff {t : TypeDecl} {m : Member} {k : Accessor} :
    classify t m = some k ↔
      ∃ c, m = .method c ∧ (FieldIndex.ofType t).classifyMethod c = some k := by
  cases m <;> simp [classify, FieldIndex.classify]

theorem classify_eq_getter_iff {t : TypeDecl} {m : Member} {p : String} :
    classify t m = some (.getter p) ↔ IsGetterOf t m p := by
  simp only [classify_eq_some_iff, classifyMethod_eq_some_iff, FieldIndex.isGetter_iff]
  constructor
  · rintro ⟨c, rfl, body, x, q, hbody, hnames, ⟨-, -, hk⟩ | ⟨hx, hgetter, hk⟩⟩
    · cases hk
    · cases hk
      obtain ⟨hresult, hparams, e, rfl, hrefers, hfield⟩ := hgetter
      refine ⟨c, e, rfl, ?_, hparams, hbody, hrefers, hfield⟩
      cases x with
      | is => exact .inr ⟨hnames, hresult rfl⟩
      | get => exact .inl hnames
      | set => exact absurd rfl hx
  · rintro ⟨c, e, rfl, hnames, hparams, hbody, hrefers, hfield⟩
    have hreturns : ∃ e', [Statement.result (some e)] = [.result (some e')] ∧ e'.Refers p ∧
        t.HasPrivateInstance p := ⟨e, rfl, hrefers, hfield⟩
    rcases hnames with hnames | ⟨hnames, hresult⟩
    · have hget : Prefix.get = .is → c.result = .boolean := nofun
      exact ⟨c, rfl, _, .get, p, hbody, hnames, .inr ⟨nofun, ⟨hget, hparams, hreturns⟩, rfl⟩⟩
    · have his : Prefix.is = .is → c.result = .boolean := fun _ => hresult
      exact ⟨c, rfl, _, .is, p, hbody, hnames, .inr ⟨nofun, ⟨his, hparams, hreturns⟩, rfl⟩⟩

theorem classify_eq_setter_iff {t : TypeDecl} {m : Member} {p : String} :
    classify t m = some (.setter p) ↔ IsSetterOf t m p := by
  simp only [classify_eq_some_iff, classifyMethod_eq_some_iff, FieldIndex.isSetter_iff]
  constructor
  · rintro ⟨c, rfl, body, x, q, hbody, hnames, ⟨rfl, hsetter, hk⟩ | ⟨-, -, hk⟩⟩
    · cases hk
      obtain ⟨hresult, a, target, value, hparams, rfl, htarget, hfield⟩ := hsetter
      exact ⟨c, a, target, value, rfl, hnames, hresult, hparams, hbody, htarget, hfield⟩
    · cases hk
  · rintro ⟨c, a, target, value, rfl, hnames, hresult, hparams, hbody, htarget, hfield⟩
    refine ⟨c, rfl, _, .set, p, hbody, hnames, .inl ⟨rfl, ?_, rfl⟩⟩
    exact ⟨hresult, a, target, value, hparams, rfl, htarget, hfield⟩

/-- **The classifier is exact.** A member is judged a getter or a setter of a property exactly where it
    has the shape of one, and is no accessor exactly where it has neither shape for any property. -/
theorem classify_exact (t : TypeDecl) (m : Member) :
    (∀ p, classify t m = some (.getter p) ↔ IsGetterOf t m p) ∧
      (∀ p, classify t m = some (.setter p) ↔ IsSetterOf t m p) ∧
      (classify t m = none ↔ ∀ p, ¬ IsGetterOf t m p ∧ ¬ IsSetterOf t m p) := by
  refine ⟨fun p => classify_eq_getter_iff, fun p => classify_eq_setter_iff, ?_⟩
  simp only [← classify_eq_getter_iff, ← classify_eq_setter_iff]
  constructor
  · intro h p
    rw [h]
    exact ⟨nofun, nofun⟩
  · intro h
    match hk : classify t m with
    | none => rfl
    | some (.getter p) => exact absurd hk (h p).1
    | some (.setter p) => exact absurd hk (h p).2

end AccessorScan
