import AccessorScan.Accessor.Verdict

/-!
# `Proofs.Occurrences` — where the callables of a source stand

Verdicts list the callables of a type before those of its nested types. A source has them in another
order: each nested type stands at its own place among its siblings. Here a callable is taken together
with the names of the types around it and with the type that declares it, in the order of the source.

## Contents
- `Occurrence`, `occurrences`: the callables of some types, in document order.
- `TypeDecl.declaredNames`, `HasPlainNames`: the names that become parts of qualified names, and what
  they should be like.
- `TypeDecl.nested_induction`: induction on how types are nested.
- `TypeDecl.verdictsUnder_eq`, `TypeDecl.occurrences_eq`: both orders, one level of nesting at a time.
- `TypeDecl.mem_occurrences`, `TypeDecl.exists_path_of_mem_occurrences`: which callables occur, and
  under which paths.
-/

namespace AccessorScan

/-- A method or constructor with the type that declares it. -/
structure Occurrence where
  /-- The names of the enclosing types, from the outermost one. -/
  path : List String
  owner : TypeDecl
  member : Member

namespace Occurrence

def name (o : Occurrence) : String := o.member.name?.getD ""

def qualifiedName (o : Occurrence) : String := ".".intercalate (o.path ++ [o.name])

/-- The verdict on the callable, judged by the fields of the type that declares it. -/
def verdict (o : Occurrence) : Verdict :=
  ⟨".".intercalate o.path, o.name, o.member.line, o.member.isConstructor, classify o.owner o.member⟩

end Occurrence

mutual

/-- The callables in a type that stands inside the types `outer`, in document order. -/
def TypeDecl.occurrences (outer : List String) : TypeDecl → List Occurrence
  | ⟨name, kind, line, members⟩ =>
      Member.occurrencesAll (outer ++ [name]) ⟨name, kind, line, members⟩ members

/-- The callables that a member of `owner` is or holds. -/
def Member.occurrences (path : List String) (owner : TypeDecl) : Member → List Occurrence
  | .type t => t.occurrences path
  | .method c => [⟨path, owner, .method c⟩]
  | .constructor c => [⟨path, owner, .constructor c⟩]
  | .field _ => []
  | .other _ => []

def Member.occurrencesAll (path : List String) (owner : TypeDecl) : List Member → List Occurrence
  | [] => []
  | m :: rest => m.occurrences path owner ++ Member.occurrencesAll path owner rest

end

/-- The callables of some types, in document order. -/
def occurrences (types : List TypeDecl) : List Occurrence :=
  types.flatMap fun t => t.occurrences []

/-- The name can be one component of a qualified name. -/
def IsPlainName (n : String) : Prop := '.' ∉ n.toList

instance (n : String) : Decidable (IsPlainName n) := inferInstanceAs (Decidable (¬ _))

mutual

/-- The names of a type and of the types, methods and constructors in it. -/
def TypeDecl.declaredNames : TypeDecl → List String
  | ⟨name, _, _, members⟩ => name :: Member.declaredNamesAll members

def Member.declaredNames : Member → List String
  | .type t => t.declaredNames
  | .method c => [c.name]
  | .constructor c => [c.name]
  | .field _ => []
  | .other _ => []

def Member.declaredNamesAll : List Member → List String
  | [] => []
  | m :: rest => m.declaredNames ++ Member.declaredNamesAll rest

end

/-- No type, method or constructor in these types has a dot in its name. -/
def HasPlainNames (types : List TypeDecl) : Prop := ∀ t ∈ types, ∀ n ∈ t.declaredNames, IsPlainName n

instance (types : List TypeDecl) : Decidable (HasPlainNames types) :=
  inferInstanceAs (Decidable (∀ t ∈ types, ∀ n ∈ t.declaredNames, IsPlainName n))

/-! ## Nesting -/

theorem TypeDecl.mem_nested {t n : TypeDecl} : n ∈ t.nested ↔ .type n ∈ t.members := by
  rw [nested, List.mem_filterMap]
  constructor
  · rintro ⟨m, hm, hn⟩
    cases m with
    | type t' =>
        obtain rfl := Option.some.inj hn
        exact hm
    | field _ => cases hn
    | method _ => cases hn
    | constructor _ => cases hn
    | other _ => cases hn
  · intro h
    exact ⟨.type n, h, rfl⟩

theorem TypeDecl.sizeOf_lt_of_mem_nested {t n : TypeDecl} (h : n ∈ t.nested) :
    sizeOf n < sizeOf t := by
  have hmem : sizeOf (Member.type n) < sizeOf t.members :=
    List.sizeOf_lt_of_mem (mem_nested.mp h)
  have hmembers : sizeOf t.members < sizeOf t := by
    cases t with
    | mk name kind line members =>
        show sizeOf members < sizeOf (TypeDecl.mk name kind line members)
        rw [TypeDecl.mk.sizeOf_spec]
        omega
  have htype : sizeOf n < sizeOf (Member.type n) := by
    rw [Member.type.sizeOf_spec]
    omega
  omega

/-- Induction on nesting: a property holds of all types if it passes from the types nested in a type to
    that type. -/
theorem TypeDecl.nested_induction {P : TypeDecl → Prop}
    (step : ∀ t : TypeDecl, (∀ n ∈ t.nested, P n) → P t) (t : TypeDecl) : P t :=
  step t fun n _ => nested_induction step n
termination_by sizeOf t
decreasing_by exact sizeOf_lt_of_mem_nested ‹_›

/-- What a member contributes to the callables of its own type. -/
def Member.ownOccurrences (path : List String) (owner : TypeDecl) (m : Member) : List Occurrence :=
  if m.callable?.isSome then [⟨path, owner, m⟩] else []

/-- What a member contributes to the callables of nested types. -/
def Member.innerOccurrences (path : List String) (m : Member) : List Occurrence :=
  m.type?.toList.flatMap fun n => n.occurrences path

/-! ## One level at a time -/

theorem Member.occurrencesAll_eq (path : List String) (owner : TypeDecl) (members : List Member) :
    occurrencesAll path owner members = members.flatMap (occurrences path owner) := by
  induction members with
  | nil => rfl
  | cons m rest ih => rw [occurrencesAll, ih, List.flatMap_cons]

theorem TypeDecl.occurrences_eq (outer : List String) (t : TypeDecl) :
    t.occurrences outer = t.members.flatMap (Member.occurrences (outer ++ [t.name]) t) := by
  cases t
  rw [occurrences, Member.occurrencesAll_eq]

theorem Member.occurrences_eq (path : List String) (owner : TypeDecl) (m : Member) :
    m.occurrences path owner = m.ownOccurrences path owner ++ m.innerOccurrences path := by
  cases m <;> simp [occurrences, ownOccurrences, innerOccurrences, callable?, type?]

theorem Member.flatMap_ownOccurrences (path : List String) (owner : TypeDecl)
    (members : List Member) :
    members.flatMap (ownOccurrences path owner) =
      (members.filter fun m => m.callable?.isSome).map fun m => ⟨path, owner, m⟩ := by
  induction members with
  | nil => rfl
  | cons m rest ih =>
      rw [List.flatMap_cons, ih]
      by_cases h : m.callable?.isSome = true
      · simp [ownOccurrences, h]
      · simp [ownOccurrences, h]

theorem Member.flatMap_innerOccurrences (path : List String) (members : List Member) :
    members.flatMap (innerOccurrences path) =
      (members.filterMap type?).flatMap fun n => n.occurrences path := by
  induction members with
  | nil => rfl
  | cons m rest ih =>
      rw [List.flatMap_cons, ih]
      cases h : m.type? with
      | none => simp [innerOccurrences, h]
      | some n => simp [innerOccurrences, h]

/-- A callable in a type is one of its own or stands in a type nested in it. -/
theorem TypeDecl.mem_occurrences {outer : List String} {t : TypeDecl} {o : Occurrence} :
    o ∈ t.occurrences outer ↔
      (∃ m ∈ t.callables, o = ⟨outer ++ [t.name], t, m⟩) ∨
        ∃ n ∈ t.nested, o ∈ n.occurrences (outer ++ [t.name]) := by
  have hown : o ∈ t.members.flatMap (Member.ownOccurrences (outer ++ [t.name]) t) ↔
      ∃ m ∈ t.callables, o = ⟨outer ++ [t.name], t, m⟩ := by
    rw [Member.flatMap_ownOccurrences, List.mem_map]
    exact exists_congr fun m => and_congr_right fun _ => eq_comm
  have hinner : o ∈ t.members.flatMap (Member.innerOccurrences (outer ++ [t.name])) ↔
      ∃ n ∈ t.nested, o ∈ n.occurrences (outer ++ [t.name]) := by
    rw [Member.flatMap_innerOccurrences, List.mem_flatMap]
    rfl
  rw [occurrences_eq, ← hown, ← hinner]
  simp only [List.mem_flatMap, Member.occurrences_eq, List.mem_append, and_or_left, exists_or]

theorem Member.declaredNamesAll_eq (members : List Member) :
    declaredNamesAll members = members.flatMap declaredNames := by
  induction members with
  | nil => rfl
  | cons m rest ih => rw [declaredNamesAll, ih, List.flatMap_cons]

theorem TypeDecl.declaredNames_eq (t : TypeDecl) :
    t.declaredNames = t.name :: t.members.flatMap Member.declaredNames := by
  cases t
  rw [declaredNames, Member.declaredNamesAll_eq]

theorem Member.nestedVerdicts_eq (path : String) (members : List Member) :
    nestedVerdicts path members =
      (members.filterMap type?).flatMap fun n => n.verdictsUnder (path ++ "." ++ n.name) := by
  induction members with
  | nil => rfl
  | cons m rest ih =>
      cases m with
      | type t => simp [nestedVerdicts, type?, ih]
      | field _ => exact ih
      | method _ => exact ih
      | constructor _ => exact ih
      | other _ => exact ih

/-- The callables of a type come first, then the types nested in it. -/
theorem TypeDecl.verdictsUnder_eq (path : String) (t : TypeDecl) :
    t.verdictsUnder path =
      t.ownVerdicts path ++ t.nested.flatMap fun n => n.verdictsUnder (path ++ "." ++ n.name) := by
  cases t
  rw [verdictsUnder, Member.nestedVerdicts_eq]
  rfl

/-! ## Names and paths -/

/-- One more name in a qualified name. -/
theorem intercalate_dot_concat {path : List String} (h : path ≠ []) (n : String) :
    ".".intercalate (path ++ [n]) = ".".intercalate path ++ "." ++ n := by
  rw [String.intercalate_append_of_ne_nil h (by simp), String.intercalate_singleton]

theorem Member.mem_declaredNames {t : TypeDecl} {m : Member} (hm : m ∈ t.members) {x : String}
    (hx : x ∈ m.declaredNames) : x ∈ t.declaredNames := by
  rw [TypeDecl.declaredNames_eq]
  exact List.mem_cons_of_mem _ (List.mem_flatMap.mpr ⟨m, hm, hx⟩)

theorem TypeDecl.name_mem_declaredNames (t : TypeDecl) : t.name ∈ t.declaredNames := by
  rw [declaredNames_eq]
  exact List.mem_cons_self

theorem TypeDecl.name_mem_of_mem_callables {t : TypeDecl} {m : Member} (hm : m ∈ t.callables) :
    m.name?.getD "" ∈ t.declaredNames := by
  obtain ⟨hmem, hcallable⟩ := List.mem_filter.mp hm
  refine Member.mem_declaredNames hmem ?_
  cases m with
  | method c => exact List.mem_singleton_self _
  | constructor c => exact List.mem_singleton_self _
  | type _ => cases hcallable
  | field _ => cases hcallable
  | other _ => cases hcallable

/-- The path of a callable in a type leads through that type, and all names behind that point are
    declared there. -/
theorem TypeDecl.exists_path_of_mem_occurrences (t : TypeDecl) :
    ∀ {outer : List String} {o : Occurrence}, o ∈ t.occurrences outer →
      ∃ inner, o.path = outer ++ t.name :: inner ∧
        ∀ x ∈ t.name :: inner ++ [o.name], x ∈ t.declaredNames := by
  induction t using TypeDecl.nested_induction with
  | step t ih =>
      intro outer o ho
      rcases mem_occurrences.mp ho with ⟨m, hm, rfl⟩ | ⟨n, hn, ho⟩
      · refine ⟨[], rfl, fun x hx => ?_⟩
        rcases List.mem_cons.mp hx with rfl | hx
        · exact t.name_mem_declaredNames
        · obtain rfl := List.mem_singleton.mp hx
          exact name_mem_of_mem_callables hm
      · obtain ⟨inner, hpath, hnames⟩ := ih n hn ho
        refine ⟨n.name :: inner, by rw [hpath, List.append_assoc]; rfl, fun x hx => ?_⟩
        rcases List.mem_cons.mp hx with rfl | hx
        · exact t.name_mem_declaredNames
        · exact Member.mem_declaredNames (mem_nested.mp hn) (hnames x hx)

end AccessorScan
