import AccessorScan.Proofs.Bodies
import AccessorScan.Proofs.SourceTrees
import AccessorScan.Scan.Basic
import Mathlib.Data.List.Forall2

/-!
# `Proofs.SyntaxVerdict` — verdicts, read off the tree

From a tree to its verdicts a model is built, types are gone through level by level, and names, bodies
and fields are compared. Here the verdict on each callable is said by what is written in the tree.

## Contents
- `Tree.IsGetterOf`, `Tree.IsSetterOf`: methods with the shape of an accessor.
- `CallableNode`, `callableNodes`: the callables of a tree in the order of their verdicts.
- `DeclaredIn`: which declarations a tree has, and under which paths.
- `Judged`: what the verdict on a callable says.
- `methods_forall₂`, `tree_verdict_exact`.
-/

namespace AccessorScan

namespace Tree

/-! ## Accessors -/

/-- The method speaks of `p` by its name and does nothing but return the field `p`, the first of its
    name in the declaration `owner`, where it is private and not static. -/
def IsGetterOf (owner method : Tree) (p : String) : Prop :=
  (Prefix.get.Names (method.partText .name) p ∨
    Prefix.is.Names (method.partText .name) p ∧ method.HasPlainResult "boolean_type") ∧
  method.parameterNodes = [] ∧
  (∃ block, method.part? .body = some block ∧ block.ReturnsField p) ∧
  owner.DeclaresPrivateField p

/-- The method speaks of `p` by its name and does nothing but assign the field `p`, the first of its
    name in the declaration `owner`, where it is private and not static. -/
def IsSetterOf (owner method : Tree) (p : String) : Prop :=
  Prefix.set.Names (method.partText .name) p ∧ method.HasPlainResult "void_type" ∧
  (∃ parameter name block, method.parameterNodes = [parameter] ∧
    parameter.parameterName? = some name ∧ method.part? .body = some block ∧
    block.AssignsField name p) ∧
  owner.DeclaresPrivateField p

end Tree

/-! ## Callables of a tree -/

/-- A method or a constructor in a tree. -/
structure CallableNode where
  /-- The names of the declarations around it, from the outermost one. -/
  path : List String
  owner : Tree
  member : Tree

/-- The callables in a declaration that is reached under this path: first its own, then those of the
    declarations in it. -/
def Tree.callablesUnder (path : List String) (t : Tree) : List CallableNode :=
  (t.declaredMembers.filter isCallable).map (fun m => ⟨path, t, m⟩) ++
    (t.declaredMembers.filter isModelled).attach.flatMap fun n =>
      n.val.callablesUnder (path ++ [n.val.partText .name])
termination_by sizeOf t
decreasing_by exact sizeOf_lt_of_mem_declaredMembers (List.mem_filter.mp n.property).1

theorem Tree.callablesUnder_eq (path : List String) (t : Tree) :
    t.callablesUnder path =
      (t.declaredMembers.filter isCallable).map (fun m => ⟨path, t, m⟩) ++
        (t.declaredMembers.filter isModelled).flatMap fun n =>
          n.callablesUnder (path ++ [n.partText .name]) := by
  rw [callablesUnder,
    List.flatMap_subtype (g := fun n => n.callablesUnder (path ++ [n.partText .name]))
      fun _ _ => rfl,
    List.unattach_attach]

/-- The callables of a tree, in the order of their verdicts. -/
def callableNodes (t : Tree) : List CallableNode :=
  (t.namedChildren.filter Tree.isModelled).flatMap fun d => d.callablesUnder [d.partText .name]

/-- The program `t` declares `d`, as a type of its own or as a member of another, under this path. -/
inductive DeclaredIn (t : Tree) : List String → Tree → Prop where
  | top {d : Tree} (h : d ∈ t.namedChildren) (hd : d.isModelled = true) :
      DeclaredIn t [d.partText .name] d
  | nested {path : List String} {d n : Tree} (h : DeclaredIn t path d) (hn : n ∈ d.declaredMembers)
      (hm : n.isModelled = true) : DeclaredIn t (path ++ [n.partText .name]) n

theorem DeclaredIn.exists_child_within {t d : Tree} {path : List String} (h : DeclaredIn t path d) :
    ∃ c ∈ t.children, d.Within c := by
  induction h with
  | top h _ => exact ⟨_, Tree.mem_of_mem_namedChildren h, .self⟩
  | nested _ hn _ ih =>
      obtain ⟨c, hc, hd⟩ := ih
      exact ⟨c, hc, (Tree.within_of_mem_declaredMembers hn).trans hd⟩

theorem DeclaredIn.within {t d : Tree} {path : List String} (h : DeclaredIn t path d) : d.Within t := by
  obtain ⟨c, hc, hd⟩ := h.exists_child_within
  exact .child hc hd

theorem DeclaredIn.exists_ofTree? {t d : Tree} {path : List String} (h : DeclaredIn t path d) :
    ∃ model, TypeDecl.ofTree? d = some model := by
  rw [← Option.isSome_iff_exists, TypeDecl.ofTree?_isSome]
  cases h with
  | top _ hd => exact hd
  | nested _ _ hm => exact hm

/-- **Every callable of every declaration occurs**, and nothing else does. -/
theorem mem_callableNodes {t : Tree} {c : CallableNode} :
    c ∈ callableNodes t ↔
      DeclaredIn t c.path c.owner ∧ c.member ∈ c.owner.declaredMembers ∧
        c.member.isCallable = true := by
  -- by induction on how `d` is reached, its callables are among those of the whole tree
  have hunder : ∀ {path : List String} {d : Tree}, DeclaredIn t path d →
      ∀ x ∈ d.callablesUnder path, x ∈ callableNodes t := by
    intro path d h
    induction h with
    | top h hd =>
        intro x hx
        exact List.mem_flatMap.mpr ⟨_, List.mem_filter.mpr ⟨h, hd⟩, hx⟩
    | nested _ hn hm ih =>
        intro x hx
        refine ih x ?_
        rw [Tree.callablesUnder_eq]
        exact List.mem_append_right _ (List.mem_flatMap.mpr ⟨_, List.mem_filter.mpr ⟨hn, hm⟩, hx⟩)
  -- by induction on what `d` holds, its callables stand in declarations of the tree
  have hdeclared : ∀ (d : Tree) {path : List String}, DeclaredIn t path d →
      c ∈ d.callablesUnder path → DeclaredIn t c.path c.owner ∧
        c.member ∈ c.owner.declaredMembers ∧ c.member.isCallable = true := by
    intro d
    induction d using Tree.declared_induction with
    | step d ih =>
        intro path h hc
        rw [Tree.callablesUnder_eq] at hc
        rcases List.mem_append.mp hc with hc | hc
        · obtain ⟨m, hm, rfl⟩ := List.mem_map.mp hc
          exact ⟨h, List.mem_filter.mp hm⟩
        · obtain ⟨n, hn, hc⟩ := List.mem_flatMap.mp hc
          obtain ⟨hn, hm⟩ := List.mem_filter.mp hn
          exact ih n hn (.nested h hn hm) hc
  constructor
  · intro hc
    obtain ⟨d, hd, hc⟩ := List.mem_flatMap.mp hc
    obtain ⟨hd, hm⟩ := List.mem_filter.mp hd
    exact hdeclared d (.top hd hm) hc
  · rintro ⟨h, hmember, hcallable⟩
    refine hunder h c ?_
    rw [Tree.callablesUnder_eq]
    exact List.mem_append_left _ (List.mem_map.mpr ⟨_, List.mem_filter.mpr ⟨hmember, hcallable⟩, rfl⟩)

/-! ## The verdict on one callable -/

/-- What the verdict on a callable says, by what is written. -/
structure Judged (c : CallableNode) (v : Verdict) : Prop where
  owner : v.owner = ".".intercalate c.path
  method : v.method = c.member.partText .name
  line : v.line = c.member.line
  isConstructor : v.isConstructor = true ↔ c.member.kind ≠ "method_declaration"
  getter : ∀ p, v.accessor = some (.getter p) ↔
    c.member.kind = "method_declaration" ∧ c.owner.IsGetterOf c.member p
  setter : ∀ p, v.accessor = some (.setter p) ↔
    c.member.kind = "method_declaration" ∧ c.owner.IsSetterOf c.member p

/-- **Getters.** A method is judged a getter exactly where it is written as one. -/
theorem Tree.isGetterOf_iff {t m : Tree} {d : TypeDecl} (h : TypeDecl.ofTree? t = some d)
    (ht : t.FitsGrammar) (hm : m.FitsGrammar) {p : String} :
    AccessorScan.IsGetterOf d (.method (.ofMethod m)) p ↔ t.IsGetterOf m p := by
  have hparameters : Parameter.listOfDeclaration m = [] ↔ m.parameterNodes = [] := by
    have hlength := (Parameter.listOfDeclaration_forall₂ hm).length_eq
    rw [← List.length_eq_zero_iff, ← hlength, List.length_eq_zero_iff]
  have hbody : (∃ e, (m.part? .body).map Statement.listOfBlock = some [.result (some e)] ∧
      e.Refers p) ↔ ∃ block, m.part? .body = some block ∧ block.ReturnsField p := by
    simp only [returnsField_iff, Option.map_eq_some_iff]
    constructor
    · rintro ⟨e, ⟨block, hblock, hmodel⟩, he⟩
      exact ⟨block, hblock, e, hmodel, he⟩
    · rintro ⟨block, hblock, e, hmodel, he⟩
      exact ⟨e, ⟨block, hblock, hmodel⟩, he⟩
  rw [Tree.IsGetterOf, ← TypeDecl.hasPrivateInstance_iff h ht, ← hbody, ← hparameters,
    ← TypeRef.ofDeclaration_eq_boolean_iff hm]
  constructor
  · rintro ⟨c, e, hc, hnames, hparams, hblock, he, hfield⟩
    obtain rfl := Member.method.inj hc
    exact ⟨hnames, hparams, ⟨e, hblock, he⟩, hfield⟩
  · rintro ⟨hnames, hparams, ⟨e, hblock, he⟩, hfield⟩
    exact ⟨_, e, rfl, hnames, hparams, hblock, he, hfield⟩

/-- **Setters.** A method is judged a setter exactly where it is written as one. -/
theorem Tree.isSetterOf_iff {t m : Tree} {d : TypeDecl} (h : TypeDecl.ofTree? t = some d)
    (ht : t.FitsGrammar) (hm : m.FitsGrammar) {p : String} :
    AccessorScan.IsSetterOf d (.method (.ofMethod m)) p ↔ t.IsSetterOf m p := by
  have hparameters := Parameter.listOfDeclaration_forall₂ hm
  rw [Tree.IsSetterOf, ← TypeDecl.hasPrivateInstance_iff h ht,
    ← TypeRef.ofDeclaration_eq_void_iff hm]
  constructor
  · rintro ⟨c, a, target, value, hc, hnames, hresult, hparams, hblock, htarget, hfield⟩
    obtain rfl := Member.method.inj hc
    have hlist : Parameter.listOfDeclaration m = [a] := hparams
    rw [hlist] at hparameters
    obtain ⟨parameter, nodes, hname, hrest, hnodes⟩ := List.forall₂_cons_right_iff.mp hparameters
    obtain rfl := List.forall₂_nil_right_iff.mp hrest
    obtain ⟨block, hbody, hmodel⟩ := Option.map_eq_some_iff.mp hblock
    have hassigns := (Tree.assignsField_iff (hm.part? hbody)).mpr ⟨target, value, hmodel, htarget⟩
    exact ⟨hnames, hresult, ⟨parameter, a.name, block, hnodes, hname, hbody, hassigns⟩, hfield⟩
  · rintro ⟨hnames, hresult, ⟨parameter, name, block, hnodes, hname, hbody, hassigns⟩, hfield⟩
    rw [hnodes] at hparameters
    obtain ⟨a, rest, ha, hrest, hlist⟩ := List.forall₂_cons_left_iff.mp hparameters
    obtain rfl := List.forall₂_nil_left_iff.mp hrest
    obtain rfl := Option.some.inj (hname.symm.trans ha)
    -- the parameter of the model has the name of the one that is written
    obtain ⟨target, value, hmodel, htarget⟩ :=
      (Tree.assignsField_iff (hm.part? hbody)).mp hassigns
    have hblock : (m.part? .body).map Statement.listOfBlock = some [.assignment target value] := by
      rw [hbody, Option.map_some, hmodel]
    exact ⟨_, a, target, value, rfl, hnames, hresult, hlist, hblock, htarget, hfield⟩

theorem judged_callable {path : List String} {t m : Tree} {d : TypeDecl}
    (h : TypeDecl.ofTree? t = some d) (ht : t.FitsGrammar) (hm : m ∈ t.declaredMembers) :
    Judged ⟨path, t, m⟩ ⟨".".intercalate path, (Member.ofCallable m).name?.getD "",
      (Member.ofCallable m).line, (Member.ofCallable m).isConstructor,
      classify d (Member.ofCallable m)⟩ := by
  have hfits := ht.declaredMember hm
  unfold Member.ofCallable
  by_cases hkind : m.kind = "method_declaration"
  · rw [if_pos hkind]
    refine ⟨rfl, rfl, rfl, by simp [hkind, Member.isConstructor], fun p => ?_, fun p => ?_⟩
    · rw [classify_eq_getter_iff, Tree.isGetterOf_iff h ht hfits, and_iff_right hkind]
    · rw [classify_eq_setter_iff, Tree.isSetterOf_iff h ht hfits, and_iff_right hkind]
  · rw [if_neg hkind]
    refine ⟨rfl, rfl, rfl, by simp [hkind, Member.isConstructor], fun p => ?_, fun p => ?_⟩
    · exact ⟨nofun, fun hp => absurd hp.1 hkind⟩
    · exact ⟨nofun, fun hp => absurd hp.1 hkind⟩

/-! ## The verdicts on a tree -/

section Verdicts

variable {R : CallableNode → Verdict → Prop}

/-- Where declarations correspond to types, so do their callables to the verdicts on these. -/
theorem forall₂_flatMap_ofTree? {ts : List Tree} {f : Tree → List CallableNode}
    {g : TypeDecl → List Verdict}
    (h : ∀ t ∈ ts, ∀ d, TypeDecl.ofTree? t = some d → List.Forall₂ R (f t) (g d)) :
    List.Forall₂ R ((ts.filter Tree.isModelled).flatMap f)
      ((ts.filterMap TypeDecl.ofTree?).flatMap g) := by
  have htypes := TypeDecl.forall₂_filterMap_ofTree? ts
  exact List.rel_flatMap htypes fun t d htd => h t htd.1 d htd.2

variable {p : Tree → Bool}
  (hown : ∀ {path : List String} {t m : Tree} {d : TypeDecl}, TypeDecl.ofTree? t = some d →
    t.everywhere p = true → m ∈ t.declaredMembers →
    R ⟨path, t, m⟩ ⟨".".intercalate path, (Member.ofCallable m).name?.getD "",
      (Member.ofCallable m).line, (Member.ofCallable m).isConstructor, classify d (Member.ofCallable m)⟩)

include hown

theorem verdictsUnder_forall₂ (t : Tree) :
    ∀ {path : List String} {d : TypeDecl}, path ≠ [] → TypeDecl.ofTree? t = some d →
      t.everywhere p = true →
      List.Forall₂ R (t.callablesUnder path) (d.verdictsUnder (".".intercalate path)) := by
  induction t using Tree.declared_induction with
  | step t ih =>
      intro path d hpath h ht
      rw [Tree.callablesUnder_eq, TypeDecl.verdictsUnder_eq, TypeDecl.nested_of_ofTree? h]
      -- its own callables correspond one to one, those of nested declarations by induction
      refine List.rel_append ?_ (forall₂_flatMap_ofTree? fun n hn e he => ?_)
      · rw [TypeDecl.ownVerdicts, TypeDecl.callables_of_ofTree? h, List.map_map,
          List.forall₂_map_left_iff, List.forall₂_map_right_iff, List.forall₂_same]
        exact fun m hm => hown h ht (List.mem_filter.mp hm).1
      · have hdot : ".".intercalate (path ++ [n.partText .name]) =
            ".".intercalate path ++ "." ++ e.name := by
          rw [intercalate_dot_concat hpath, TypeDecl.name_of_ofTree? he]
        rw [← hdot]
        exact ih n hn (by simp) he ((Tree.within_of_mem_declaredMembers hn).everywhere ht)

/-- What holds of the verdict on each callable of each declaration ties the callables of a tree to the
    verdicts on it. -/
theorem methods_forall₂_of_own {t : Tree} (ht : t.everywhere p = true) (file : String) :
    List.Forall₂ R (callableNodes t) (FileReport.ofModel file (.ofTree t)).methods := by
  refine forall₂_flatMap_ofTree? fun d hd e he => ?_
  have hname : e.name = ".".intercalate [d.partText .name] := by
    rw [String.intercalate_singleton, TypeDecl.name_of_ofTree? he]
  rw [hname]
  exact verdictsUnder_forall₂ hown d (by simp) he
    ((Tree.everywhere_iff.mp ht).2 d (Tree.mem_of_mem_namedChildren hd))

end Verdicts

theorem methods_forall₂ {t : Tree} (ht : t.FitsGrammar) (file : String) :
    List.Forall₂ Judged (callableNodes t) (FileReport.ofModel file (.ofTree t)).methods :=
  methods_forall₂_of_own (fun h hfits hm => judged_callable h hfits hm) ht file

/-- **Verdicts, read off the tree.** In a tree of the grammar, such as that of any source, the
    callables of all declarations and the verdicts correspond one to one and in order. The verdict on a
    method is that it is a getter or a setter of a property exactly where it is written as one, and no
    method of a declaration is left out. -/
theorem tree_verdict_exact :
    (∀ (t : Tree) (file : String), t.FitsGrammar →
      List.Forall₂ Judged (callableNodes t) (FileReport.ofModel file (.ofTree t)).methods) ∧
    (∀ (source : String) (file : FilePath),
      List.Forall₂ Judged (callableNodes (syntaxTree source))
        (Scan.scanSource source file).value.methods) ∧
    ∀ (t : Tree) (path : List String) (d m : Tree), DeclaredIn t path d → m ∈ d.declaredMembers →
      m.kind = "method_declaration" → ⟨path, d, m⟩ ∈ callableNodes t := by
  refine ⟨fun t file ht => ?_, fun source file => ?_, fun t path d m hd hm hkind => ?_⟩
  · exact methods_forall₂ ht file
  · exact methods_forall₂ (syntaxTree_fitsGrammar source) file.text
  · exact mem_callableNodes.mpr ⟨hd, hm, by simp [Tree.isCallable, hkind]⟩

/-- The tree of a type with one field and two methods, one of which returns the field in parentheses.
    Comments stand in between, and a lone semicolon makes the other method no setter. -/
def lampTree : Tree :=
  let sign (text : String) : Tree := .leaf none ⟨text, false, false, " ", text, 1⟩
  let word (kind text : String) : Tree := .leaf none ⟨kind, true, false, " ", text, 1⟩
  let comment : Tree := .leaf none ⟨"block_comment", true, false, " ", "/**/", 1⟩
  let on : Tree := word "identifier" "on"
  let boolean : Tree := (word "boolean_type" "boolean").withRole .type
  let parameters (ts : List Tree) : Tree :=
    .node (some .parameters) "formal_parameters" ([sign "("] ++ ts ++ [comment, sign ")"])
  let block (ts : List Tree) : Tree :=
    .node (some .body) "block" ([sign leftBrace] ++ ts ++ [sign rightBrace])
  let field : Tree := .node none "field_declaration"
    [.node none "modifiers" [sign "private"], boolean,
      .node (some .declarator) "variable_declarator" [on.withRole .name], sign ";"]
  let getter : Tree := .node none "method_declaration"
    [boolean, (word "identifier" "isOn").withRole .name, parameters [],
      block [comment, .node none "return_statement" [sign "return",
        .node none "parenthesized_expression" [sign "(", comment, on, sign ")"], sign ";"]]]
  let assignment : Tree := .node none "assignment_expression"
    [on.withRole .left, (sign "=").withRole .operator, (word "identifier" "lit").withRole .right]
  let method : Tree := .node none "method_declaration"
    [(word "void_type" "void").withRole .type, (word "identifier" "setOn").withRole .name,
      parameters [.node none "formal_parameter"
        [boolean, (word "identifier" "lit").withRole .name]],
      block [.node none "expression_statement" [assignment, sign ";"], sign ";"]]
  programNode [.node none "class_declaration" [sign "class",
    (word "identifier" "Lamp").withRole .name,
    .node (some .body) "class_body"
      [sign leftBrace, field, getter, comment, method, sign rightBrace]]]

theorem tree_verdict_lamp :
    lampTree.FitsGrammar ∧
    List.Forall₂ Judged (callableNodes lampTree)
      (FileReport.ofModel "Lamp.java" (.ofTree lampTree)).methods ∧
    (FileReport.ofModel "Lamp.java" (.ofTree lampTree)).methods =
      [⟨"Lamp", "isOn", 1, false, some (.getter "on")⟩, ⟨"Lamp", "setOn", 1, false, none⟩] := by
  have hfits : lampTree.FitsGrammar := by decide
  exact ⟨hfits, tree_verdict_exact.1 lampTree "Lamp.java" hfits, by decide⟩

end AccessorScan
