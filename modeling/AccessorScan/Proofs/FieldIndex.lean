import AccessorScan.Accessor.FieldIndex

/-!
# `Proofs.FieldIndex` — the index answers with the first declaration

The index is built by a fold that keeps the earlier of two declarations of one name. What a look-up
answers is therefore what a search of the fields in declaration order finds first.

## Contents
- `TypeDecl.FirstField`: the first field of a name, by its place among the fields.
- `FieldIndex.get?_declare`, `FieldIndex.get?_foldl_declare`: one step of the fold, and a run of it.
- `FieldIndex.get?_ofType_eq_some_iff`, `FieldIndex.privateField?_ofType_eq_some_iff`.
-/

namespace AccessorScan

/-- `f` is the first field of the name `n` that the type `t` declares. -/
def TypeDecl.FirstField (t : TypeDecl) (n : String) (f : Field) : Prop :=
  ∃ before after, t.fields = before ++ f :: after ∧ f.name = n ∧ ∀ g ∈ before, g.name ≠ n

/-- The first field of the name `n` in the type `t` is private and not static. -/
def TypeDecl.HasPrivateInstance (t : TypeDecl) (n : String) : Prop :=
  ∃ f, t.FirstField n f ∧ .privateAccess ∈ f.modifiers ∧ .static ∉ f.modifiers

theorem Field.isPrivateInstance_iff {f : Field} :
    f.isPrivateInstance = true ↔ .privateAccess ∈ f.modifiers ∧ .static ∉ f.modifiers := by
  simp [isPrivateInstance, isPrivate, has]

theorem Member.field?_eq_some_iff {m : Member} {f : Field} : m.field? = some f ↔ m = .field f := by
  cases m <;> simp [field?]

theorem TypeDecl.mem_fields {t : TypeDecl} {f : Field} : f ∈ t.fields ↔ .field f ∈ t.members := by
  simp only [fields, List.mem_filterMap, Member.field?_eq_some_iff, exists_eq_right]

theorem TypeDecl.firstField_iff {t : TypeDecl} {n : String} {f : Field} :
    t.FirstField n f ↔ (t.fields.find? fun g => g.name == n) = some f := by
  rw [List.find?_eq_some_iff_append]
  constructor
  · rintro ⟨before, after, hfields, hname, hbefore⟩
    exact ⟨by simpa using hname, before, after, hfields, fun g hg => by simpa using hbefore g hg⟩
  · rintro ⟨hname, before, after, hfields, hbefore⟩
    exact ⟨before, after, hfields, by simpa using hname, fun g hg => by simpa using hbefore g hg⟩

namespace FieldIndex

/-- **One declaration.** A name that was found before is found as before; otherwise the new field
    answers to its own name. -/
theorem get?_declare (index : FieldIndex) (f : Field) (n : String) :
    (index.declare f).get? n = (index.get? n).or ([f].find? fun g => g.name == n) := by
  unfold declare
  by_cases hf : (index.get? f.name).isSome = true
  · rw [if_pos hf]
    by_cases hn : f.name = n
    · subst hn
      rw [Option.or_of_isSome hf]
    · simp [hn]
  · rw [if_neg hf]
    simp only [get?, List.find?_append]

/-- **A run of declarations.** The fields of the index come before those that are declared now. -/
theorem get?_foldl_declare (fields : List Field) (index : FieldIndex) (n : String) :
    (fields.foldl declare index).get? n =
      (index.get? n).or (fields.find? fun g => g.name == n) := by
  induction fields generalizing index with
  | nil => simp
  | cons f fields ih =>
      rw [List.foldl_cons, ih, get?_declare, Option.or_assoc, ← List.find?_append,
        List.singleton_append]

theorem get?_ofType (t : TypeDecl) (n : String) :
    (ofType t).get? n = t.fields.find? fun g => g.name == n := by
  show (t.fields.foldl declare ⟨[]⟩).get? n = _
  rw [get?_foldl_declare]
  rfl

/-- A look-up finds the first field of that name. -/
theorem get?_ofType_eq_some_iff {t : TypeDecl} {n : String} {f : Field} :
    (ofType t).get? n = some f ↔ t.FirstField n f := by
  rw [get?_ofType, TypeDecl.firstField_iff]

theorem privateField?_ofType_eq_some_iff {t : TypeDecl} {n : String} {f : Field} :
    (ofType t).privateField? n = some f ↔
      t.FirstField n f ∧ .privateAccess ∈ f.modifiers ∧ .static ∉ f.modifiers := by
  rw [privateField?, Option.filter_eq_some_iff, get?_ofType_eq_some_iff, Field.isPrivateInstance_iff]

theorem privateField?_ofType_isSome_iff {t : TypeDecl} {n : String} :
    ((ofType t).privateField? n).isSome = true ↔ t.HasPrivateInstance n := by
  simp only [Option.isSome_iff_exists, privateField?_ofType_eq_some_iff, TypeDecl.HasPrivateInstance]

end FieldIndex

end AccessorScan
