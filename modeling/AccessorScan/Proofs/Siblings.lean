import AccessorScan.Proofs.Occurrences
import AccessorScan.Proofs.Outline

/-!
# `Proofs.Siblings` — how the members of a type bear on each other's verdicts

A method is judged by its own text and by the private instance fields beside it, and of several fields
of one name only the first one counts. So a member that comes after the others can give a name a
meaning that had none, and cannot take one away. The order of the members counts only between fields of
one name.

## Contents
- `TypeDecl.firstField_add_iff`, `TypeDecl.hasPrivateInstance_add`, `TypeDecl.hasPrivateInstance_add_iff`:
  the fields of a type with one more member.
- `classify_of_hasPrivateInstance`: more private instance fields, more accessors.
- `TypeDecl.firstField_iff_mem`: where no two fields have one name, their order does not count.
- `TypeDecl.verdictsUnder_perm`: the verdicts on a type with its members in another order.
- `members_influence`, with `boxType`.
-/

namespace AccessorScan

namespace TypeDecl

variable {t u : TypeDecl} {x : Member} {n : String} {f : Field}

/-! ## One more member -/

theorem fields_add (t : TypeDecl) (x : Member) : (t.add x).fields = t.fields ++ x.field?.toList := by
  show (t.members ++ [x]).filterMap Member.field? = t.members.filterMap Member.field? ++ _
  rw [List.filterMap_append]
  cases x <;> rfl

/-- **One more member.** The new member is asked for a name only where no field had it before. -/
theorem firstField_add_iff :
    (t.add x).FirstField n f ↔
      t.FirstField n f ∨ (∀ g ∈ t.fields, g.name ≠ n) ∧ x = .field f ∧ f.name = n := by
  have hnone : (t.fields.find? fun g => g.name == n) = none ↔ ∀ g ∈ t.fields, g.name ≠ n := by
    simp only [List.find?_eq_none, beq_iff_eq, ne_eq]
  have hnew : (x.field?.toList.find? fun g => g.name == n) = some f ↔ x = .field f ∧ f.name = n := by
    rw [← Member.field?_eq_some_iff]
    cases x.field? with
    | none => exact ⟨nofun, nofun⟩
    | some g =>
        by_cases hg : g.name = n
        · simp only [Option.toList_some, List.find?_singleton, hg, beq_self_eq_true, if_true,
            Option.some.injEq]
          exact ⟨fun h => ⟨h, h ▸ hg⟩, And.left⟩
        · simp only [Option.toList_some, List.find?_singleton, beq_iff_eq, hg, if_false,
            Option.some.injEq]
          exact ⟨nofun, fun ⟨h, hf⟩ => absurd (h ▸ hf) hg⟩
  rw [firstField_iff, firstField_iff, fields_add, List.find?_append, Option.or_eq_some_iff, hnone, hnew]

/-- What a name stood for, it still stands for. -/
theorem hasPrivateInstance_add (x : Member) (h : t.HasPrivateInstance n) :
    (t.add x).HasPrivateInstance n := by
  obtain ⟨f, hfirst, hmodifiers⟩ := h
  exact ⟨f, firstField_add_iff.mpr (.inl hfirst), hmodifiers⟩

/-- A member that brings no new name of a field changes nothing. -/
theorem hasPrivateInstance_add_iff (hx : ∀ f, x = .field f → ∃ g ∈ t.fields, g.name = f.name) :
    (t.add x).HasPrivateInstance n ↔ t.HasPrivateInstance n := by
  refine ⟨?_, hasPrivateInstance_add x⟩
  rintro ⟨f, hfirst, hmodifiers⟩
  rcases firstField_add_iff.mp hfirst with hfirst | ⟨hnone, hfield, hname⟩
  · exact ⟨f, hfirst, hmodifiers⟩
  · obtain ⟨g, hg, hgf⟩ := hx f hfield
    exact absurd (hgf.trans hname) (hnone g hg)

/-! ## Another order -/

/-- Where no two fields have one name, the first field of a name is the only one. -/
theorem firstField_iff_mem (h : (t.fields.map Field.name).Nodup) :
    t.FirstField n f ↔ f ∈ t.fields ∧ f.name = n := by
  constructor
  · rintro ⟨before, after, hfields, hname, -⟩
    rw [hfields]
    exact ⟨List.mem_append_right _ List.mem_cons_self, hname⟩
  · rintro ⟨hf, hname⟩
    obtain ⟨before, after, hfields⟩ := List.append_of_mem hf
    refine ⟨before, after, hfields, hname, ?_⟩
    rw [hfields, List.map_append, List.map_cons] at h
    intro g hg hgn
    exact (List.nodup_append.mp h).2.2 g.name (List.mem_map_of_mem hg) f.name List.mem_cons_self
      (hgn.trans hname.symm)

theorem hasPrivateInstance_perm (hnames : (t.fields.map Field.name).Nodup)
    (h : u.members.Perm t.members) : u.HasPrivateInstance n ↔ t.HasPrivateInstance n := by
  have hfields : u.fields.Perm t.fields := h.filterMap Member.field?
  have hnames' : (u.fields.map Field.name).Nodup := (hfields.map Field.name).nodup_iff.mpr hnames
  simp only [HasPrivateInstance, firstField_iff_mem hnames, firstField_iff_mem hnames', hfields.mem_iff]

end TypeDecl

/-! ## Verdicts on one member -/

/-- **More fields, more accessors.** A member that is an accessor stays one, of the same kind and
    property, where the private instance fields are still there. -/
theorem classify_of_hasPrivateInstance {t u : TypeDecl}
    (h : ∀ p, t.HasPrivateInstance p → u.HasPrivateInstance p) {m : Member} {k : Accessor}
    (hk : classify t m = some k) : classify u m = some k := by
  cases k with
  | getter p =>
      obtain ⟨c, e, hm, hname, hparameters, hbody, hrefers, hfield⟩ := classify_eq_getter_iff.mp hk
      exact classify_eq_getter_iff.mpr ⟨c, e, hm, hname, hparameters, hbody, hrefers, h p hfield⟩
  | setter p =>
      obtain ⟨c, a, target, value, hm, hname, hresult, hparameters, hbody, htarget, hfield⟩ :=
        classify_eq_setter_iff.mp hk
      exact classify_eq_setter_iff.mpr
        ⟨c, a, target, value, hm, hname, hresult, hparameters, hbody, htarget, h p hfield⟩

theorem classify_add {t : TypeDecl} (x : Member) {m : Member} {k : Accessor} (hk : classify t m = some k) :
    classify (t.add x) m = some k :=
  classify_of_hasPrivateInstance (fun _ => TypeDecl.hasPrivateInstance_add x) hk

/-! ## All verdicts -/

theorem TypeDecl.ownVerdicts_perm {t u : TypeDecl} (h : u.members.Perm t.members)
    (hclassify : ∀ m, classify u m = classify t m) (path : String) :
    (u.ownVerdicts path).Perm (t.ownVerdicts path) := by
  have hsame : u.ownVerdicts path = u.callables.map fun m =>
      ⟨path, m.name?.getD "", m.line, m.isConstructor, classify t m⟩ := by
    apply List.map_congr_left
    intro m _
    show Verdict.mk path _ m.line m.isConstructor (classify u m) = _
    rw [hclassify]
  rw [hsame]
  exact (h.filter _).map _

/-- The verdicts on a type with its members in another order: each once, in another order. -/
theorem TypeDecl.verdictsUnder_perm {t u : TypeDecl} (h : u.members.Perm t.members)
    (hclassify : ∀ m, classify u m = classify t m) (path : String) :
    (u.verdictsUnder path).Perm (t.verdictsUnder path) := by
  rw [verdictsUnder_eq, verdictsUnder_eq]
  apply List.Perm.append
  · exact ownVerdicts_perm h hclassify path
  · exact (h.filterMap Member.type?).flatMap_right _

/-- **How the members of a type bear on a verdict.** One more member takes no accessor away and makes
    none another one. It changes nothing unless it is a field of a new name. Where no two fields have one
    name, the order of the members makes no difference to any verdict. -/
theorem members_influence (t : TypeDecl) :
    (∀ x m k, classify t m = some k → classify (t.add x) m = some k) ∧
      (∀ x, (∀ f, x = .field f → ∃ g ∈ t.fields, g.name = f.name) →
        ∀ m, classify (t.add x) m = classify t m) ∧
      ((t.fields.map Field.name).Nodup → ∀ members : List Member, members.Perm t.members →
        (∀ m, classify { t with members := members } m = classify t m) ∧
          (verdicts [{ t with members := members }]).Perm (verdicts [t])) := by
  refine ⟨fun x m k => classify_add x, fun x hx => ?_, fun hnames members h => ?_⟩
  · exact classify_congr fun p => TypeDecl.hasPrivateInstance_add_iff hx
  · have hclassify : ∀ m, classify { t with members := members } m = classify t m :=
      classify_congr fun p => TypeDecl.hasPrivateInstance_perm hnames h
    refine ⟨hclassify, ?_⟩
    simp only [verdicts, List.flatMap_singleton]
    exact TypeDecl.verdictsUnder_perm h hclassify t.name

/-- `private int size; int getSize() { return size; } void setSize(int value) { this.size = value; }` -/
def boxType : TypeDecl where
  name := "Box"
  kind := .ordinary
  line := 1
  members :=
    [.field ⟨"size", .primitive "int", [.privateAccess], 2⟩,
     .method ⟨"getSize", [], .primitive "int", [], some [.result (some (.name "size"))], 3⟩,
     .method ⟨"setSize", [⟨"value", .primitive "int"⟩], .void, [],
       some [.assignment (.selfField "size") (.name "value")], 4⟩]

/-- A field of the same name that no accessor could be of. -/
def sharedSize : Field := ⟨"size", .primitive "int", [.privateAccess, .static], 5⟩

/-- After the first field the shared one changes nothing, and the members may come in reverse. -/
theorem members_influence_box :
    (∀ m k, classify boxType m = some k → classify (boxType.add (.field sharedSize)) m = some k) ∧
      (∀ m, classify (boxType.add (.field sharedSize)) m = classify boxType m) ∧
      (verdicts [{ boxType with members := boxType.members.reverse }]).Perm (verdicts [boxType]) ∧
      (verdicts [boxType]).map Verdict.accessor = [some (.getter "size"), some (.setter "size")] := by
  obtain ⟨hadd, hknown, horder⟩ := members_influence boxType
  refine ⟨hadd _, hknown (.field sharedSize) ?_, ?_, by decide⟩
  · intro f hf
    cases hf
    exact ⟨_, List.mem_singleton_self _, rfl⟩
  · exact (horder (by decide) boxType.members.reverse (List.reverse_perm _)).2

-- between fields of one name the order does count: here the shared one comes first
example : classify { boxType with members := .field sharedSize :: boxType.members }
    (.method ⟨"getSize", [], .primitive "int", [], some [.result (some (.name "size"))], 3⟩) = none := by
  decide

end AccessorScan
