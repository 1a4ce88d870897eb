import AccessorScan.Proofs.FieldIndex
import Mathlib.Data.Set.Card

/-!
# `Proofs.FieldSearch` — the index says what a search of the members says

An index is built by declaring one field after the other. It never comes to hold two fields of one name,
so it has as many entries as the fields have names, and what it answers to a name is the field that a search
of the members meets first. Members of any other kind make no difference.

## Contents
- `TypeDecl.DeclaresFirst`, `TypeDecl.fieldNames`: the first field of a name, by its place among all members,
  and the names of the fields.
- `FieldIndex.names`, `mem_names_iff`: the names that an index answers to.
- `nodup_names_declare`, `nodup_names_foldl_declare`: one declaration, and a run of them.
- `lookup_searches_members`.
-/

namespace AccessorScan

namespace TypeDecl

variable {t : TypeDecl} {n : String} {f : Field}

/-- `f` is the field of the name `n` that comes first among the members of the type `t`. -/
def DeclaresFirst (t : TypeDecl) (n : String) (f : Field) : Prop :=
  ∃ before after, t.members = before ++ .field f :: after ∧ f.name = n ∧
    ∀ g, .field g ∈ before → g.name ≠ n

/-- The names of the fields among the members of a type. -/
def fieldNames (t : TypeDecl) : Set String := {n | ∃ f, .field f ∈ t.members ∧ f.name = n}

/-- The fields without the other members have the same first one of a name. -/
theorem firstField_iff_declaresFirst : t.FirstField n f ↔ t.DeclaresFirst n f := by
  constructor
  · rintro ⟨before, after, hfields, hname, hbefore⟩
    obtain ⟨front, back, hmembers, rfl, hback⟩ := List.filterMap_eq_append_iff.mp hfields
    obtain ⟨others, m, rest, rfl, hothers, hm, -⟩ := List.filterMap_eq_cons_iff.mp hback
    obtain rfl := Member.field?_eq_some_iff.mp hm
    refine ⟨front ++ others, rest, by rw [hmembers, List.append_assoc], hname, ?_⟩
    intro g hg
    obtain hg | hg := List.mem_append.mp hg
    · apply hbefore
      exact List.mem_filterMap.mpr ⟨.field g, hg, rfl⟩
    · -- No field stands between those before and this one.
      cases hothers (.field g) hg
  · rintro ⟨before, after, hmembers, hname, hbefore⟩
    refine ⟨before.filterMap Member.field?, after.filterMap Member.field?, ?_, hname, ?_⟩
    · rw [fields, hmembers, List.filterMap_append]
      rfl
    · intro g hg
      obtain ⟨m, hm, hfield⟩ := List.mem_filterMap.mp hg
      obtain rfl := Member.field?_eq_some_iff.mp hfield
      exact hbefore g hm

end TypeDecl

namespace FieldIndex

variable {t : TypeDecl} {index : FieldIndex} {n : String} {f : Field}

/-! ## Look-ups -/

theorem get?_ofType_eq_none_iff : (ofType t).get? n = none ↔ n ∉ t.fieldNames := by
  rw [get?_ofType, List.find?_eq_none]
  simp only [TypeDecl.mem_fields, beq_iff_eq]
  show _ ↔ ¬ ∃ f, .field f ∈ t.members ∧ f.name = n
  rw [not_exists]
  exact forall_congr' fun f => not_and.symm

/-- A first field that is no private instance field hides those of its name that come later. -/
theorem privateField?_ofType_eq_none_iff :
    (ofType t).privateField? n = none ↔
      n ∉ t.fieldNames ∨
        ∃ f, t.FirstField n f ∧ ¬ (.privateAccess ∈ f.modifiers ∧ .static ∉ f.modifiers) := by
  simp only [← get?_ofType_eq_none_iff, ← get?_ofType_eq_some_iff, ← Field.isPrivateInstance_iff]
  rw [privateField?]
  cases (ofType t).get? n with
  | none => simp
  | some f => simp [Option.filter_eq_none_iff]

/-! ## Entries -/

/-- The names that an index answers to. -/
def names (index : FieldIndex) : List String := index.entries.map Field.name

theorem mem_names_iff : n ∈ index.names ↔ (index.get? n).isSome = true := by
  rw [names, get?, List.find?_isSome, List.mem_map]
  simp only [beq_iff_eq]

/-- **One declaration** brings in a new name or none. -/
theorem nodup_names_declare (h : index.names.Nodup) (f : Field) : (index.declare f).names.Nodup := by
  unfold declare
  by_cases hf : (index.get? f.name).isSome = true
  · rw [if_pos hf]
    exact h
  · rw [if_neg hf]
    have hnew : f.name ∉ index.names := fun hmem => hf (mem_names_iff.mp hmem)
    show ((index.entries ++ [f]).map Field.name).Nodup
    rw [List.map_append, List.map_singleton]
    exact h.append (List.nodup_singleton _) (List.disjoint_singleton.mpr hnew)

/-- **A run of declarations** keeps the names apart. -/
theorem nodup_names_foldl_declare (fields : List Field) (h : index.names.Nodup) :
    (fields.foldl declare index).names.Nodup := by
  induction fields generalizing index with
  | nil => exact h
  | cons f fields ih =>
      rw [List.foldl_cons]
      apply ih
      exact nodup_names_declare h f

theorem nodup_names_ofType (t : TypeDecl) : (ofType t).names.Nodup :=
  nodup_names_foldl_declare t.fields List.nodup_nil

theorem mem_names_ofType_iff : n ∈ (ofType t).names ↔ n ∈ t.fieldNames := by
  rw [mem_names_iff, Option.isSome_iff_ne_none, ne_eq, get?_ofType_eq_none_iff, not_not]

theorem size_ofType (t : TypeDecl) : (ofType t).size = t.fieldNames.ncard := by
  have hnames : t.fieldNames = ↑(ofType t).names.toFinset := by
    ext n
    rw [List.coe_toFinset]
    exact mem_names_ofType_iff.symm
  rw [hnames, Set.ncard_coe_finset, List.toFinset_card_of_nodup (nodup_names_ofType t), names,
    List.length_map]
  rfl

theorem isEmpty_ofType_iff : (ofType t).isEmpty = true ↔ ∀ f, .field f ∉ t.members := by
  have hempty : (ofType t).isEmpty = true ↔ ∀ n, n ∉ (ofType t).names := by
    rw [isEmpty, List.isEmpty_iff, ← List.map_eq_nil_iff, List.eq_nil_iff_forall_not_mem]
    rfl
  rw [hempty]
  constructor
  · intro h f hf
    exact h f.name (mem_names_ofType_iff.mpr ⟨f, hf, rfl⟩)
  · intro h n hn
    obtain ⟨f, hf, -⟩ := mem_names_ofType_iff.mp hn
    exact h f hf

/-- **The index says what a search of the members says.** A look-up finds the field of that name that comes
    first among the members of the type, and nothing if no field has the name, whatever else has it. Asked for
    a private field it finds the same one if that is private and not static, and nothing otherwise: a later
    field of the name does not count. There are as many entries as the fields have names, and none exactly if
    no member is a field. -/
theorem lookup_searches_members (t : TypeDecl) :
    (∀ n f, (ofType t).get? n = some f ↔ t.DeclaresFirst n f) ∧
    (∀ n, (ofType t).get? n = none ↔ n ∉ t.fieldNames) ∧
    (∀ n f, (ofType t).privateField? n = some f ↔
      t.DeclaresFirst n f ∧ .privateAccess ∈ f.modifiers ∧ .static ∉ f.modifiers) ∧
    (∀ n, (ofType t).privateField? n = none ↔
      n ∉ t.fieldNames ∨
        ∃ f, t.DeclaresFirst n f ∧ ¬ (.privateAccess ∈ f.modifiers ∧ .static ∉ f.modifiers)) ∧
    (ofType t).size = t.fieldNames.ncard ∧
    ((ofType t).isEmpty = true ↔ ∀ f, .field f ∉ t.members) := by
  simp only [← TypeDecl.firstField_iff_declaresFirst]
  refine ⟨fun n f => ?_, fun n => ?_, fun n f => ?_, fun n => ?_, ?_, ?_⟩
  · exact get?_ofType_eq_some_iff
  · exact get?_ofType_eq_none_iff
  · exact privateField?_ofType_eq_some_iff
  · exact privateField?_ofType_eq_none_iff
  · exact size_ofType t
  · exact isEmpty_ofType_iff

/-- A type in which `a` is the name of a method, of a nested type and of two fields, the later one private. -/
def overnamed : TypeDecl :=
  ⟨"T", .ordinary, 1, [.method (.empty "a" .void), .type (.empty "a" .ordinary),
    .field ⟨"a", .boolean, [], 2⟩, .field ⟨"b", .boolean, [.privateAccess], 3⟩,
    .field ⟨"a", .boolean, [.privateAccess], 4⟩, .constructor (.empty "c" .void)]⟩

theorem lookup_searches_members_overnamed :
    overnamed.DeclaresFirst "a" ⟨"a", .boolean, [], 2⟩ ∧
    (ofType overnamed).get? "a" = some ⟨"a", .boolean, [], 2⟩ ∧
    (ofType overnamed).privateField? "a" = none ∧
    (ofType overnamed).privateField? "b" = some ⟨"b", .boolean, [.privateAccess], 3⟩ ∧
    "c" ∉ overnamed.fieldNames ∧ (ofType overnamed).get? "c" = none ∧
    overnamed.fieldNames.ncard = 2 ∧ (ofType overnamed).isEmpty = false := by
  obtain ⟨hget, hnone, hprivate, hhidden, hsize, hempty⟩ := lookup_searches_members overnamed
  have ha : overnamed.DeclaresFirst "a" ⟨"a", .boolean, [], 2⟩ := ⟨[_, _], _, rfl, rfl, by simp⟩
  have hb : overnamed.DeclaresFirst "b" ⟨"b", .boolean, [.privateAccess], 3⟩ :=
    ⟨[_, _, _], _, rfl, rfl, by simp⟩
  have hc : "c" ∉ overnamed.fieldNames := by simp [TypeDecl.fieldNames, overnamed]
  have hfields : (ofType overnamed).isEmpty ≠ true := fun h =>
    hempty.mp h ⟨"a", .boolean, [], 2⟩ (by simp [overnamed])
  refine ⟨ha, (hget _ _).mpr ha, (hhidden _).mpr (.inr ⟨_, ha, by simp⟩),
    (hprivate _ _).mpr ⟨hb, by simp⟩, hc, (hnone _).mpr hc, hsize ▸ rfl, ?_⟩
  exact Bool.eq_false_iff.mpr hfields

end FieldIndex

end AccessorScan
