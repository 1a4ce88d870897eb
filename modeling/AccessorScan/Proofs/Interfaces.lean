import AccessorScan.Proofs.Contents
import AccessorScan.Proofs.SyntaxVerdict

/-!
# `Proofs.Interfaces` — nothing in an interface is an accessor

An accessor is an accessor of a private field of its own type that is not static. The fields of an
interface are constants, and these are static whatever is written before them. So no method of an
interface is one, not even a method with the shape of one, while the types in it are judged by fields of
their own.

## Contents
- `Tree.fitsInterface`, `Tree.FitsInterfaces`: what the grammar says of interfaces; `syntaxTree_fitsInterfaces`.
- `Field.IsConstant`: the modifiers of a constant; `TypeDecl.isConstant_of_interface`.
- `TypeDecl.classify_eq_none`: without a private field there is no accessor.
- `JudgedByOwner`: the verdict comes from the fields of the own type.
- `interfaces_without_accessors`.
-/

namespace AccessorScan

namespace Tree

/-! ## What the grammar says of interfaces -/

/-- An interface has no components, and what declares fields in its body declares constants. -/
def fitsInterface (t : Tree) : Bool :=
  t.kind != "interface_declaration" ||
    (t.parts .parameters).isEmpty && t.declaredMembers.all fun m => m.kind != "field_declaration"

/-- A tree whose interfaces are as the grammar makes them. -/
def FitsInterfaces (t : Tree) : Prop := t.everywhere fitsInterface = true

instance (t : Tree) : Decidable t.FitsInterfaces := inferInstanceAs (Decidable (_ = true))

theorem fitsInterface_iff {t : Tree} :
    t.fitsInterface = true ↔ (t.kind = "interface_declaration" →
      t.parts .parameters = [] ∧ ∀ m ∈ t.declaredMembers, m.kind ≠ "field_declaration") := by
  simp only [fitsInterface, Bool.or_eq_true, bne_iff_ne, Bool.and_eq_true, List.isEmpty_iff,
    List.all_eq_true]
  rw [← Decidable.imp_iff_not_or]

/-- What stands in the body of a filled node that is no second part of an enumeration is a member. -/
theorem mem_of_mem_memberNodesIn {ts : List Tree} {m : Tree}
    (hts : ∀ t ∈ ts, t.kind ≠ "enum_body_declarations") (hm : m ∈ memberNodesIn ts) : m ∈ ts := by
  induction ts with
  | nil => cases hm
  | cons t ts ih =>
      rw [memberNodesIn, List.mem_append] at hm
      rcases hm with hm | hm
      · cases t with
        | leaf role token =>
            rw [memberNodes] at hm
            split at hm
            · exact List.mem_cons.mpr (.inl (List.mem_singleton.mp hm))
            · cases hm
        | node role kind cs =>
            have hkind : kind ≠ "enum_body_declarations" := hts _ List.mem_cons_self
            rw [memberNodes, if_neg hkind] at hm
            split at hm
            · cases hm
            · exact List.mem_cons.mpr (.inl (List.mem_singleton.mp hm))
      · exact List.mem_cons_of_mem t (ih (fun x hx => hts x (List.mem_cons_of_mem t hx)) hm)

/-- A part of a filled node that is an aside is a leaf; any other may stand in it. -/
theorem isLeaf_or_mayHold {t c : Tree} (h : t.everywhere isFilled = true) (hc : c ∈ t.children) :
    c.isAside = true ∧ c.isLeaf = true ∨ mayHold t.kind c.kind = true := by
  obtain ⟨ht, hchildren⟩ := everywhere_iff.mp h
  have hcFilled := (everywhere_iff.mp (hchildren c hc)).1
  rw [isFilled, Bool.or_eq_true, Bool.and_eq_true] at ht
  rcases ht with hleaf | ⟨-, hall⟩
  · cases t with
    | leaf role token => cases hc
    | node role kind cs => cases hleaf
  · rcases Bool.or_eq_true_iff.mp (List.all_eq_true.mp hall c hc) with haside | hholds
    · refine .inl ⟨haside, ?_⟩
      simpa [isFilled, haside] using hcFilled
    · exact .inr hholds

/-- No interface has a member that declares fields other than constants. -/
theorem kind_ne_of_mem_declaredMembers {t m : Tree} (h : t.everywhere isFilled = true)
    (hkind : t.kind = "interface_declaration") (hm : m ∈ t.declaredMembers) :
    m.kind ≠ "field_declaration" := by
  rw [declaredMembers] at hm
  cases hbody : t.part? .body with
  | none => simp [hbody] at hm
  | some body =>
      rw [hbody] at hm
      have hmem := mem_of_part? hbody
      have hbodyFilled := (everywhere_iff.mp h).2 body hmem
      have hinside : ∀ c ∈ body.children, c.kind ∉ foreignKinds := by
        intro c hc
        rcases isLeaf_or_mayHold h hmem with ⟨-, hleaf⟩ | hholds
        · cases body with
          | leaf role token => cases hc
          | node role kind cs => cases hleaf
        · have hpart : body.kind ∈ interfaceParts := by
            simpa [hkind] using (Bool.and_eq_true_iff.mp hholds).1
          rcases isLeaf_or_mayHold hbodyFilled hc with ⟨haside, -⟩ | hholds
          · rw [isAside_iff] at haside
            simp only [asideKinds, List.mem_cons, List.not_mem_nil, or_false] at haside
            rcases haside with hk | hk | hk <;> rw [hk] <;> decide
          · simpa [mayHold, hpart] using (Bool.and_eq_true_iff.mp hholds).2
      have henum : ∀ c ∈ body.children, c.kind ≠ "enum_body_declarations" := by
        intro c hc hk
        exact hinside c hc (by simp [hk, foreignKinds])
      have hfield := hinside m (mem_of_mem_memberNodesIn henum hm)
      rintro hk
      exact hfield (by simp [hk, foreignKinds])

theorem fitsInterface_of_filled {t : Tree} (h : t.everywhere isFilled = true)
    (hfits : t.fitsDeclaration = true) : t.fitsInterface = true := by
  refine fitsInterface_iff.mpr fun hkind => ?_
  obtain ⟨-, -, hbare⟩ := fitsDeclaration_iff.mp hfits
  exact ⟨hbare (by simp [hkind, bareKinds]), fun m hm => kind_ne_of_mem_declaredMembers h hkind hm⟩

/-- A filled tree with the right parts has the right interfaces. -/
theorem fitsInterfaces_of_filled {t : Tree} (h : t.everywhere isFilled = true)
    (hfits : t.FitsDeclarations) : t.FitsInterfaces := by
  induction t using children_induction with
  | step t ih =>
      obtain ⟨hnode, hchildren⟩ := everywhere_iff.mp hfits
      exact everywhere_iff.mpr ⟨fitsInterface_of_filled h hnode, fun c hc =>
        ih c hc ((everywhere_iff.mp h).2 c hc) (hchildren c hc)⟩

end Tree

theorem syntaxTree_fitsInterfaces (source : String) : (syntaxTree source).FitsInterfaces := by
  have hfits := Tree.everywhere_iff.mp (syntaxTree_fitsDeclarations source)
  refine Tree.everywhere_iff.mpr ⟨Tree.fitsInterface_iff.mpr fun hkind => ?_, fun c hc => ?_⟩
  · -- the whole is a program
    obtain ⟨ts, hts, -⟩ := syntaxTree_read (Q := fun _ => True) (fun _ _ => trivial)
      (fun _ => trivial) source
    rw [hts] at hkind
    have hprogram : "program" ≠ "interface_declaration" := by decide
    exact absurd hkind hprogram
  · exact Tree.fitsInterfaces_of_filled (syntaxTree_filled source c hc) (hfits.2 c hc)

/-! ## The fields of an interface -/

/-- The field belongs to its type, and everyone may read it but no one change it. -/
structure Field.IsConstant (f : Field) : Prop where
  publicAccess : .publicAccess ∈ f.modifiers
  static : .static ∈ f.modifiers
  final : .final ∈ f.modifiers

/-- What is implied of the fields of a declaration is among their modifiers, whatever is written. -/
theorem Field.implied_mem_modifiers {t : Tree} {implied : List Modifier} {f : Field} {m : Modifier}
    (hf : f ∈ Field.listOfTree t implied) (hm : m ∈ implied) : m ∈ f.modifiers := by
  obtain ⟨d, -, hd⟩ := List.mem_filterMap.mp hf
  obtain ⟨name, -, rfl⟩ := Option.map_eq_some_iff.mp hd
  rw [← List.contains_iff_mem, Modifier.contains_foldl_implied, List.contains_iff_mem.mpr hm,
    Bool.or_true]

/-- The fields that a member node makes are those of a declaration of fields or of constants. -/
theorem Member.kind_of_field_mem_ofNode {n : Tree} {f : Field} (h : Member.field f ∈ ofNode n) :
    n.kind = "field_declaration" ∨
      n.kind = "constant_declaration" ∧ f ∈ Field.listOfTree n constantModifiers := by
  have hmade := madeOf_ofNode n
  generalize ofNode n = ms at hmade h
  cases hmade with
  | fields hkind => exact .inl hkind
  | constants hkind =>
      obtain ⟨g, hg, hfield⟩ := List.mem_map.mp h
      obtain rfl := Member.field.inj hfield
      exact .inr ⟨hkind, hg⟩
  | callable _ =>
      rw [ofCallable] at h
      split at h <;> cases List.mem_singleton.mp h
  | comment _ => cases h
  | type _ => cases List.mem_singleton.mp h
  | other _ _ _ => cases List.mem_singleton.mp h

namespace TypeDecl

variable {t : Tree} {d : TypeDecl}

/-- **The fields of an interface** are constants. -/
theorem isConstant_of_interface (h : ofTree? t = some d) (hfits : t.FitsInterfaces)
    (hkind : t.kind = "interface_declaration") : ∀ f ∈ d.fields, f.IsConstant := by
  obtain ⟨hparameters, hmembers⟩ := Tree.fitsInterface_iff.mp (Tree.everywhere_iff.mp hfits).1 hkind
  have hcomponents : Field.listOfComponents t = [] := by
    rw [Field.listOfComponents, Tree.part?, hparameters]
    rfl
  intro f hf
  rw [mem_fields, members_of_ofTree? h, hcomponents, List.map_nil, List.nil_append] at hf
  obtain ⟨n, hn, hf⟩ := List.mem_flatMap.mp hf
  rcases Member.kind_of_field_mem_ofNode hf with hfield | ⟨-, hconstant⟩
  · exact absurd hfield (hmembers n hn)
  · have himplied : ∀ m ∈ constantModifiers, m ∈ f.modifiers := fun m hm =>
      Field.implied_mem_modifiers hconstant hm
    exact ⟨himplied _ (by decide), himplied _ (by decide), himplied _ (by decide)⟩

/-! ## Verdicts -/

/-- A type all of whose fields are static has no accessors. -/
theorem classify_eq_none (h : ∀ f ∈ d.fields, .static ∈ f.modifiers) (m : Member) :
    classify d m = none := by
  have hfield : ∀ p, ¬ d.HasPrivateInstance p := by
    rintro p ⟨f, ⟨before, after, hfields, -, -⟩, -, hstatic⟩
    exact hstatic (h f (by simp [hfields]))
  match hk : classify d m with
  | none => rfl
  | some (.getter p) =>
      obtain ⟨_, _, _, _, _, _, _, hp⟩ := classify_eq_getter_iff.mp hk
      exact absurd hp (hfield p)
  | some (.setter p) =>
      obtain ⟨_, _, _, _, _, _, _, _, _, _, hp⟩ := classify_eq_setter_iff.mp hk
      exact absurd hp (hfield p)

end TypeDecl

/-- The verdict is on this callable and comes from the fields that its own type declares. If that is an
    interface, it is that the callable is no accessor. -/
structure JudgedByOwner (c : CallableNode) (v : Verdict) : Prop where
  owner : v.owner = ".".intercalate c.path
  method : v.method = c.member.partText .name
  line : v.line = c.member.line
  fields : ∃ d, TypeDecl.ofTree? c.owner = some d ∧
    v.accessor = (FieldIndex.ofFields d.fields).classify (.ofCallable c.member)
  interface : c.owner.kind = "interface_declaration" → v.accessor = none

theorem judgedByOwner_callable {path : List String} {t m : Tree} {d : TypeDecl}
    (h : TypeDecl.ofTree? t = some d) (hfits : t.everywhere Tree.fitsInterface = true) :
    JudgedByOwner ⟨path, t, m⟩ ⟨".".intercalate path, (Member.ofCallable m).name?.getD "",
      (Member.ofCallable m).line, (Member.ofCallable m).isConstructor,
      classify d (Member.ofCallable m)⟩ where
  owner := rfl
  method := by
    unfold Member.ofCallable
    split <;> rfl
  line := by
    unfold Member.ofCallable
    split <;> rfl
  fields := ⟨d, h, rfl⟩
  interface := fun hkind => TypeDecl.classify_eq_none
    (fun f hf => (TypeDecl.isConstant_of_interface h hfits hkind f hf).static) _

/-- The model of every interface in `t`, at any depth, has constants for fields and nothing else. -/
def InterfacesHoldConstants (t : Tree) : Prop :=
  ∀ path d, DeclaredIn t path d → d.kind = "interface_declaration" →
    ∃ model, TypeDecl.ofTree? d = some model ∧ model.kind = .interface ∧
      ∀ f ∈ model.fields, f.IsConstant

theorem interfacesHoldConstants {t : Tree} (hfits : t.FitsInterfaces) : InterfacesHoldConstants t := by
  intro path d hd hkind
  obtain ⟨model, hmodel⟩ := hd.exists_ofTree?
  refine ⟨model, hmodel, ?_, ?_⟩
  · have hdeclared := TypeDecl.ofDeclaration?_of_ofTree? hmodel
    rw [hkind] at hdeclared
    exact (Option.some.inj hdeclared).symm
  · exact TypeDecl.isConstant_of_interface hmodel (hd.within.everywhere hfits) hkind

/-- **No accessors in interfaces.** In a tree whose interfaces are as the grammar makes them, such as that
    of any source, the fields of an interface at any depth are public, static and final, whatever their
    modifiers are. No method of it is an accessor, whatever its body is. Every other callable, also one of a
    type in an interface, is judged by the fields of its own type. -/
theorem interfaces_without_accessors :
    (∀ (t : Tree) (file : String), t.FitsInterfaces → InterfacesHoldConstants t ∧
      List.Forall₂ JudgedByOwner (callableNodes t) (FileReport.ofModel file (.ofTree t)).methods) ∧
    (∀ (source : String) (file : FilePath), InterfacesHoldConstants (syntaxTree source) ∧
      List.Forall₂ JudgedByOwner (callableNodes (syntaxTree source))
        (Scan.scanSource source file).value.methods) ∧
    ∀ (t : Tree) (path : List String) (d m : Tree), DeclaredIn t path d → m ∈ d.declaredMembers →
      m.kind = "method_declaration" → ⟨path, d, m⟩ ∈ callableNodes t := by
  have htree : ∀ (t : Tree) (file : String), t.FitsInterfaces → InterfacesHoldConstants t ∧
      List.Forall₂ JudgedByOwner (callableNodes t) (FileReport.ofModel file (.ofTree t)).methods := by
    intro t file hfits
    exact ⟨interfacesHoldConstants hfits,
      methods_forall₂_of_own (fun h ht _ => judgedByOwner_callable h ht) hfits file⟩
  refine ⟨htree, fun source file => ?_, fun t path d m hd hm hkind => ?_⟩
  · exact htree _ file.text (syntaxTree_fitsInterfaces source)
  · exact mem_callableNodes.mpr ⟨hd, hm, by simp [Tree.isCallable, hkind]⟩

/-- The tree of an interface with a constant that is written `private`, a method with a body of the shape of a
    getter, and a class in it with a field and a method of the same shape. -/
def shelfTree : Tree :=
  let sign (text : String) : Tree := .leaf none ⟨text, false, false, " ", text, 1⟩
  let word (kind text : String) : Tree := .leaf none ⟨kind, true, false, " ", text, 1⟩
  let name (text : String) : Tree := (word "identifier" text).withRole .name
  let int : Tree := (word "integral_type" "int").withRole .type
  let modifiers (text : String) : Tree := .node none "modifiers" [sign text]
  let body (kind : String) (ts : List Tree) : Tree :=
    .node (some .body) kind ([sign leftBrace] ++ ts ++ [sign rightBrace])
  let field (kind : String) : Tree := .node none kind [modifiers "private", int,
    .node (some .declarator) "variable_declarator" [name "size"], sign ";"]
  let getter (modifier : String) : Tree := .node none "method_declaration" [modifiers modifier, int,
    name "getSize", .node (some .parameters) "formal_parameters" [sign "(", sign ")"],
    body "block" [.node none "return_statement" [sign "return", word "identifier" "size", sign ";"]]]
  programNode [.node none "interface_declaration" [sign "interface", name "Shelf",
    body "interface_body" [field "constant_declaration", getter "default",
      .node none "class_declaration" [sign "class", name "Box",
        body "class_body" [field "field_declaration", getter "public"]]]]]

theorem interfaces_without_accessors_shelf :
    shelfTree.FitsInterfaces ∧ InterfacesHoldConstants shelfTree ∧
    List.Forall₂ JudgedByOwner (callableNodes shelfTree)
      (FileReport.ofModel "Shelf.java" (.ofTree shelfTree)).methods ∧
    (TypeDecl.listOfProgram shelfTree).map (fun d => d.fields.map Field.modifiers) =
      [[[.privateAccess, .publicAccess, .static, .final]]] ∧
    (FileReport.ofModel "Shelf.java" (.ofTree shelfTree)).methods =
      [⟨"Shelf", "getSize", 1, false, none⟩, ⟨"Shelf.Box", "getSize", 1, false, some (.getter "size")⟩] ∧
    ∀ d ∈ shelfTree.namedChildren, ∀ m ∈ d.declaredMembers, m.kind = "method_declaration" →
      ⟨[d.partText .name], d, m⟩ ∈ callableNodes shelfTree := by
  have hfits : shelfTree.FitsInterfaces := by decide
  obtain ⟨hconstants, hjudged⟩ := interfaces_without_accessors.1 shelfTree "Shelf.java" hfits
  refine ⟨hfits, hconstants, hjudged, by decide, by decide, fun d hd m hm hkind => ?_⟩
  have hmodelled : ∀ c ∈ shelfTree.namedChildren, c.isModelled = true := by decide
  exact interfaces_without_accessors.2.2 shelfTree _ d m (.top hd (hmodelled d hd)) hm hkind

end AccessorScan
