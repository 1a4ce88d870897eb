import AccessorScan.Proofs.SyntaxVerdict
import Mathlib.Data.List.Perm.Basic

/-!
# `Proofs.Building` — the model keeps every declaration

A declaration in a tree makes members of the model: none, one or several. Here it is said, without
mention of how the model is built, which members a type is made of and in which order. The model is
built that way, at every depth, and so each method and constructor of a tree gets one verdict.

## Contents
- `Tree.Declares`, `Tree.MakesAll`, `Tree.Makes`: what the nodes of a tree make.
- `Tree.declares_of_ofTree?`: the model of a type is what its declaration makes.
- `Tree.callableDeclarations`, `Tree.programCallables`: the callables in the order of the source.
- `Tree.perm_callableNodes`; `Reported`, `ReportsEach`: each of them has one verdict.
- `declarations_kept`.
-/

namespace AccessorScan

namespace Tree

/-! ## What declarations make -/

/-- The declaration of a type. -/
def isTypeDeclaration (t : Tree) : Bool := (TypeKind.ofDeclaration? t.kind).isSome

/-- The components of a record. -/
def componentNodes (t : Tree) : List Tree :=
  if t.kind = "record_declaration" then t.parameterNodes else []

/-- The component `c` stands for this field. -/
structure MakesComponent (c : Tree) (f : Field) : Prop where
  name : c.parameterName? = some f.name
  modifiers : f.modifiers = [.privateAccess, .final]

/-- The declarator `d` of the declaration `t` stands for this field, with these modifiers implied. -/
structure MakesField (t : Tree) (implied : List Modifier) (d : Tree) (f : Field) : Prop where
  name : ∃ name, d.part? .name = some name ∧ f.name = name.text
  type : f.type = .ofDeclaration t (d.part? .dimensions)
  modifiers : ∀ m, m ∈ f.modifiers ↔ t.hasModifier m.keyword = true ∨ m ∈ implied
  line : f.line = d.line

def constructorKinds : List String :=
  ["constructor_declaration", "compact_constructor_declaration"]

/-- The kinds of members that the model tells apart. -/
def memberKinds : List String :=
  ["field_declaration", "constant_declaration", "method_declaration"] ++ constructorKinds ++
    TypeKind.declarationKinds

mutual

/-- The declaration of a type makes the type of its name, with fields for its components in front of
    what the members in its body make. -/
inductive Declares : Tree → TypeDecl → Prop where
  | intro {t name : Tree} {kind : TypeKind} {components : List Field} {members : List Member}
      (hkind : TypeKind.ofDeclaration? t.kind = some kind) (hname : t.part? .name = some name)
      (hcomponents : List.Forall₂ MakesComponent t.componentNodes components)
      (hmembers : MakesAll t.declaredMembers members) :
      Declares t ⟨name.text, kind, t.line, components.map Member.field ++ members⟩

/-- The nodes make these members, one node after the other. -/
inductive MakesAll : List Tree → List Member → Prop where
  | nil : MakesAll [] []
  | cons {n : Tree} {ns : List Tree} {ms rest : List Member} (h : Makes n ms)
      (hrest : MakesAll ns rest) : MakesAll (n :: ns) (ms ++ rest)

/-- The node of a member makes these members. -/
inductive Makes : Tree → List Member → Prop where
  | field {n : Tree} {fs : List Field} (hkind : n.kind = "field_declaration")
      (h : List.Forall₂ (MakesField n []) (n.parts .declarator) fs) : Makes n (fs.map Member.field)
  | constant {n : Tree} {fs : List Field} (hkind : n.kind = "constant_declaration")
      (h : List.Forall₂ (MakesField n [.publicAccess, .static, .final]) (n.parts .declarator) fs) :
      Makes n (fs.map Member.field)
  | method {n : Tree} (hkind : n.kind = "method_declaration") : Makes n [.method (.ofMethod n)]
  | constructor {n : Tree} (hkind : n.kind ∈ constructorKinds) :
      Makes n [.constructor (.ofTree n .void)]
  | type {n : Tree} {d : TypeDecl} (h : Declares n d) : Makes n [.type d]
  | other {n : Tree} (hkind : n.kind ∉ memberKinds) : Makes n [.other n.kind]

end

/-! ## What the grammar says of declarations -/

namespace FitsDeclarations

variable {t n : Tree}

theorem child {c : Tree} (h : t.FitsDeclarations) (hc : c ∈ t.children) : c.FitsDeclarations :=
  (everywhere_iff.mp h).2 c hc

theorem declaredMember (h : t.FitsDeclarations) (hn : n ∈ t.declaredMembers) : n.FitsDeclarations :=
  (within_of_mem_declaredMembers hn).everywhere h

/-- The declaration of a type has a name, so the model has the type. -/
theorem isModelled_eq (h : t.FitsDeclarations) : t.isModelled = t.isTypeDeclaration := by
  obtain ⟨-, hname, -⟩ := fitsDeclaration_iff.mp (everywhere_iff.mp h).1
  rw [isModelled, isTypeDeclaration]
  cases htype : (TypeKind.ofDeclaration? t.kind).isSome with
  | false => rfl
  | true => rw [hname htype]; rfl

theorem filter_isModelled (h : t.FitsDeclarations) :
    t.namedChildren.filter isModelled = t.namedChildren.filter isTypeDeclaration :=
  List.filter_congr fun _ hc => (h.child (mem_of_mem_namedChildren hc)).isModelled_eq

/-- Only a record has components. -/
theorem part?_parameters (h : t.FitsDeclarations) (htype : t.isTypeDeclaration = true)
    (hkind : t.kind ≠ "record_declaration") : t.part? .parameters = none := by
  obtain ⟨-, -, hparameters⟩ := fitsDeclaration_iff.mp (everywhere_iff.mp h).1
  rw [isTypeDeclaration, TypeKind.ofDeclaration?_isSome_iff, TypeKind.mem_declarationKinds] at htype
  have hbare : t.kind ∈ bareKinds := by
    rcases htype with hk | hk | hk | hk
    · simp [hk, bareKinds]
    · simp [hk, bareKinds]
    · simp [hk, bareKinds]
    · exact absurd hk hkind
  rw [part?, hparameters hbare]
  rfl

/-- A declarator has a name. -/
theorem declarator {d : Tree} (h : t.FitsDeclarations) (hfits : t.FitsGrammar)
    (hd : d ∈ t.parts .declarator) : ∃ name, d.part? .name = some name := by
  obtain ⟨hdeclarators, -, -⟩ := fitsDeclaration_iff.mp (everywhere_iff.mp h).1
  exact (hfits.child (List.mem_filter.mp hd).1).declarator (hdeclarators d hd)

end FitsDeclarations

mutual

theorem isComment_of_mem_memberNodes : ∀ {t m : Tree}, m ∈ t.memberNodes → m.isComment = false
  | leaf role token, m, h => by
      rw [memberNodes] at h
      split at h
      next hnode =>
          obtain rfl := List.mem_singleton.mp h
          simpa using (Bool.and_eq_true_iff.mp hnode).2
      next => cases h
  | node role kind cs, m, h => by
      rw [memberNodes] at h
      split at h
      · exact isComment_of_mem_memberNodesIn h
      · split at h
        · cases h
        · next hcomment =>
          obtain rfl := List.mem_singleton.mp h
          exact Bool.not_eq_true _ ▸ hcomment

theorem isComment_of_mem_memberNodesIn :
    ∀ {ts : List Tree} {m : Tree}, m ∈ memberNodesIn ts → m.isComment = false
  | [], m, h => by cases h
  | t :: ts, m, h => by
      rw [memberNodesIn, List.mem_append] at h
      rcases h with h | h
      · exact isComment_of_mem_memberNodes h
      · exact isComment_of_mem_memberNodesIn h

end

/-- No member is a comment. -/
theorem isComment_of_mem_declaredMembers {t m : Tree} (h : m ∈ t.declaredMembers) :
    m.isComment = false := by
  rw [declaredMembers] at h
  cases hbody : t.part? .body with
  | none => simp [hbody] at h
  | some body =>
      rw [hbody] at h
      exact isComment_of_mem_memberNodesIn h

/-! ## The model of a declaration -/

/-- Each declarator makes one field. -/
theorem forall₂_listOfTree {t : Tree} (h : t.FitsDeclarations) (hfits : t.FitsGrammar)
    (implied : List Modifier) :
    List.Forall₂ (t.MakesField implied) (t.parts .declarator) (Field.listOfTree t implied) := by
  have hnames : ∀ d ∈ t.parts .declarator, ∃ name, d.part? .name = some name :=
    fun d hd => h.declarator hfits hd
  rw [Field.listOfTree]
  generalize t.parts .declarator = ds at hnames ⊢
  induction ds with
  | nil => exact .nil
  | cons d ds ih =>
      obtain ⟨name, hname⟩ := hnames d List.mem_cons_self
      have hrest := ih fun x hx => hnames x (List.mem_cons_of_mem d hx)
      rw [List.filterMap_cons_some (by rw [hname]; rfl)]
      refine .cons ⟨⟨name, hname, rfl⟩, rfl, fun m => ?_, rfl⟩ hrest
      rw [← List.contains_iff_mem, Modifier.contains_foldl_implied, Bool.or_eq_true,
        Modifier.contains_listOfTree, List.contains_iff_mem]

/-- Each component makes one field. -/
theorem forall₂_listOfComponents {t : Tree} (h : t.FitsDeclarations) (hfits : t.FitsGrammar)
    (htype : t.isTypeDeclaration = true) :
    List.Forall₂ MakesComponent t.componentNodes (Field.listOfComponents t) := by
  rw [componentNodes]
  by_cases hkind : t.kind = "record_declaration"
  · rw [if_pos hkind, parameterNodes, Field.listOfComponents]
    cases hlist : t.part? .parameters with
    | none => exact .nil
    | some list =>
        have hlistFits := hfits.part? hlist
        have hparameters := Parameter.forall₂_filterMap fun c hc =>
          hlistFits.child (mem_of_mem_namedChildren hc)
        exact List.forall₂_map_right_iff.mpr (hparameters.imp fun c p hp => ⟨hp, rfl⟩)
  · rw [if_neg hkind, Field.listOfComponents, h.part?_parameters htype hkind]
    exact .nil

/-- The node of a member makes what the model has for it, if the types that it declares do. -/
theorem makes_ofNode {n : Tree} (h : n.FitsDeclarations) (hfits : n.FitsGrammar)
    (hcomment : n.isComment = false) (htypes : ∀ d, TypeDecl.ofTree? n = some d → n.Declares d) :
    n.Makes (Member.ofNode n) := by
  cases hd : TypeDecl.ofTree? n with
  | some d =>
      rw [Member.ofNode_of_modelled hd]
      exact .type (htypes d hd)
  | none =>
      have hmodelled : n.isModelled = false := by rw [← TypeDecl.ofTree?_isSome, hd]; rfl
      rw [h.isModelled_eq, isTypeDeclaration, ← Bool.not_eq_true,
        TypeKind.ofDeclaration?_isSome_iff] at hmodelled
      rw [isComment, Bool.or_eq_false_iff, beq_eq_false_iff_ne, beq_eq_false_iff_ne] at hcomment
      rw [Member.ofNode_of_not_modelled hd, Member.listOfPart]
      split
      next hkind => exact .field hkind (forall₂_listOfTree h hfits [])
      next hkind => exact .constant hkind (forall₂_listOfTree h hfits constantModifiers)
      next hkind => exact .method hkind
      next hkind => exact .constructor (by simp [hkind, constructorKinds])
      next hkind => exact .constructor (by simp [hkind, constructorKinds])
      next hkind => exact absurd hkind hcomment.1
      next hkind => exact absurd hkind hcomment.2
      next => exact .other (by simp_all [memberKinds, constructorKinds])

theorem makesAll_flatMap {ns : List Tree} {f : Tree → List Member} (h : ∀ n ∈ ns, n.Makes (f n)) :
    MakesAll ns (ns.flatMap f) := by
  induction ns with
  | nil => exact .nil
  | cons n ns ih =>
      rw [List.flatMap_cons]
      exact .cons (h n List.mem_cons_self) (ih fun x hx => h x (List.mem_cons_of_mem n hx))

/-- **Types.** The model of a type is what its declaration makes. -/
theorem declares_of_ofTree? (t : Tree) :
    ∀ {d : TypeDecl}, TypeDecl.ofTree? t = some d → t.FitsGrammar → t.FitsDeclarations →
      t.Declares d := by
  induction t using declared_induction with
  | step t ih =>
      intro d hd hfits h
      have htype : t.isTypeDeclaration = true := by
        rw [← h.isModelled_eq, ← TypeDecl.ofTree?_isSome, hd]
        rfl
      have hmembers : MakesAll t.declaredMembers (t.declaredMembers.flatMap Member.ofNode) :=
        makesAll_flatMap fun n hn =>
          makes_ofNode (h.declaredMember hn) (hfits.declaredMember hn)
            (isComment_of_mem_declaredMembers hn)
            fun e he => ih n hn he (hfits.declaredMember hn) (h.declaredMember hn)
      rw [TypeDecl.ofTree?, Member.listOfBody_eq] at hd
      simp only [TypeDecl.ofParts?, Option.bind_eq_bind, Option.bind_eq_some_iff] at hd
      obtain ⟨kind, hkind, name, hname, hd⟩ := hd
      obtain rfl := Option.some.inj hd
      exact .intro hkind hname (forall₂_listOfComponents h hfits htype) hmembers

/-- The types of a program are what the declarations at its top make. -/
theorem forall₂_listOfProgram {t : Tree} (hfits : t.FitsGrammar) (h : t.FitsDeclarations) :
    List.Forall₂ Declares (t.namedChildren.filter isTypeDeclaration) (TypeDecl.listOfProgram t) := by
  rw [TypeDecl.listOfProgram, ← h.filter_isModelled]
  refine (TypeDecl.forall₂_filterMap_ofTree? t.namedChildren).imp ?_
  rintro c d ⟨hc, hd⟩
  have hmem := mem_of_mem_namedChildren hc
  exact declares_of_ofTree? c hd (hfits.child hmem) (h.child hmem)

/-! ## Callables in the order of the source -/

/-- The methods and constructors that a declaration holds at any depth, in the order of the source. -/
def callableDeclarations (t : Tree) : List Tree :=
  t.declaredMembers.attach.flatMap fun n =>
    if n.val.isCallable then [n.val]
    else if n.val.isTypeDeclaration then n.val.callableDeclarations else []
termination_by sizeOf t
decreasing_by exact sizeOf_lt_of_mem_declaredMembers n.property

theorem callableDeclarations_eq (t : Tree) :
    t.callableDeclarations = t.declaredMembers.flatMap fun n =>
      if n.isCallable then [n]
      else if n.isTypeDeclaration then n.callableDeclarations else [] := by
  rw [callableDeclarations,
    List.flatMap_subtype (g := fun n => if n.isCallable then [n]
      else if n.isTypeDeclaration then n.callableDeclarations else []) fun _ _ => rfl,
    List.unattach_attach]

/-- Those of a whole program. -/
def programCallables (t : Tree) : List Tree :=
  (t.namedChildren.filter isTypeDeclaration).flatMap callableDeclarations

/-- A type is no callable. -/
theorem isTypeDeclaration_of_isCallable {t : Tree} (h : t.isCallable = true) :
    t.isTypeDeclaration = false := by
  rw [isTypeDeclaration, ← Bool.not_eq_true, TypeKind.ofDeclaration?_isSome_iff]
  simp only [isCallable, List.contains_iff_mem, List.mem_cons, List.not_mem_nil, or_false] at h
  rcases h with h | h | h <;> simp [h, TypeKind.declarationKinds]

theorem flatMap_filter {α : Type} (ts : List Tree) (p : Tree → Bool) (f : Tree → List α) :
    (ts.filter p).flatMap f = ts.flatMap fun n => if p n then f n else [] := by
  induction ts with
  | nil => rfl
  | cons n ts ih => cases hn : p n <;> simp [hn, ih]

/-- The verdicts come in another order than the source has, but they are on the same callables. -/
theorem perm_callablesUnder (t : Tree) :
    ∀ {path : List String}, t.FitsDeclarations →
      ((t.callablesUnder path).map CallableNode.member).Perm t.callableDeclarations := by
  induction t using declared_induction with
  | step t ih =>
      intro path h
      let own : Tree → List Tree := fun n => if n.isCallable then [n] else []
      let inner : Tree → List Tree := fun n =>
        if n.isModelled then
          (n.callablesUnder (path ++ [n.partText .name])).map CallableNode.member
        else []
      have hsplit : (t.callablesUnder path).map CallableNode.member =
          t.declaredMembers.flatMap own ++ t.declaredMembers.flatMap inner := by
        have hown : t.declaredMembers.filter isCallable = t.declaredMembers.flatMap own := by
          rw [← flatMap_filter, List.flatMap_singleton']
        rw [callablesUnder_eq, List.map_append, List.map_map, List.map_flatMap, flatMap_filter,
          ← hown]
        exact congrArg (· ++ _) (List.map_id _)
      have heach : ∀ n ∈ t.declaredMembers, (own n ++ inner n).Perm
          (if n.isCallable then [n]
            else if n.isTypeDeclaration then n.callableDeclarations else []) := by
        intro n hn
        have hmodelled := (h.declaredMember hn).isModelled_eq
        by_cases hcallable : n.isCallable = true
        · simp [own, inner, hcallable, hmodelled, isTypeDeclaration_of_isCallable hcallable]
        · by_cases htype : n.isTypeDeclaration = true
          · simpa [own, inner, hcallable, hmodelled, htype] using ih n hn (h.declaredMember hn)
          · simp [own, inner, hcallable, hmodelled, htype]
      rw [hsplit, callableDeclarations_eq]
      exact (List.flatMap_append_perm _ own inner).trans (List.Perm.flatMap_left _ heach)

theorem perm_callableNodes {t : Tree} (h : t.FitsDeclarations) :
    ((callableNodes t).map CallableNode.member).Perm t.programCallables := by
  rw [callableNodes, programCallables, h.filter_isModelled, List.map_flatMap]
  refine List.Perm.flatMap_left _ fun c hc => perm_callablesUnder c ?_
  exact h.child (mem_of_mem_namedChildren (List.mem_filter.mp hc).1)

end Tree

/-! ## Programs -/

/-- The verdict is one on this method or constructor. -/
structure Reported (n : Tree) (v : Verdict) : Prop where
  method : v.method = n.partText .name
  line : v.line = n.line
  isConstructor : v.isConstructor = true ↔ n.kind ≠ "method_declaration"

/-- The verdicts are on the callables of the program `t`, one on each. -/
def ReportsEach (t : Tree) (vs : List Verdict) : Prop :=
  ∃ nodes : List Tree, nodes.Perm t.programCallables ∧ List.Forall₂ Reported nodes vs

theorem reportsEach_methods {t : Tree} (hfits : t.FitsGrammar) (h : t.FitsDeclarations)
    (file : String) : ReportsEach t (FileReport.ofModel file (.ofTree t)).methods := by
  refine ⟨(callableNodes t).map CallableNode.member, Tree.perm_callableNodes h, ?_⟩
  rw [List.forall₂_map_left_iff]
  exact (methods_forall₂ hfits file).imp fun _ _ hv => ⟨hv.method, hv.line, hv.isConstructor⟩

/-- **The model keeps every declaration.** The types of a program of the grammar are those that its
    declarations make, one for each and in order, with members in the order of the source at every
    depth. Hence each method and constructor in them has one verdict. The tree of any source is such
    a program. -/
theorem declarations_kept :
    (∀ t : Tree, t.FitsGrammar → t.FitsDeclarations →
      List.Forall₂ Tree.Declares (t.namedChildren.filter Tree.isTypeDeclaration)
        (TypeDecl.listOfProgram t) ∧
      ReportsEach t (verdicts (TypeDecl.listOfProgram t))) ∧
    ∀ (source : String) (file : FilePath),
      List.Forall₂ Tree.Declares
        ((syntaxTree source).namedChildren.filter Tree.isTypeDeclaration)
        (Scan.modelOf source file).value.types ∧
      ReportsEach (syntaxTree source) (Scan.scanSource source file).value.methods := by
  have hprogram : ∀ t : Tree, t.FitsGrammar → t.FitsDeclarations →
      List.Forall₂ Tree.Declares (t.namedChildren.filter Tree.isTypeDeclaration)
        (TypeDecl.listOfProgram t) ∧
      ReportsEach t (verdicts (TypeDecl.listOfProgram t)) :=
    fun t hfits h => ⟨Tree.forall₂_listOfProgram hfits h, reportsEach_methods hfits h ""⟩
  refine ⟨hprogram, fun source file => ?_⟩
  exact hprogram _ (syntaxTree_fitsGrammar source) (syntaxTree_fitsDeclarations source)

/-- The tree of an enumeration with a constant, two fields in one declaration, a record with a
    component and a constructor, a comment and a method. -/
def paletteTree : Tree :=
  let sign (text : String) : Tree := .leaf none ⟨text, false, false, " ", text, 1⟩
  let word (kind text : String) : Tree := .leaf none ⟨kind, true, false, " ", text, 1⟩
  let name (text : String) : Tree := (word "identifier" text).withRole .name
  let int : Tree := (word "integral_type" "int").withRole .type
  let comment : Tree := word "block_comment" "/**/"
  let block : Tree := .node (some .body) "block" [sign leftBrace, comment, sign rightBrace]
  let parameters (ts : List Tree) : Tree :=
    .node (some .parameters) "formal_parameters" ([sign "("] ++ ts ++ [sign ")"])
  let declarator (text : String) : Tree :=
    .node (some .declarator) "variable_declarator" [name text]
  let fields : Tree := .node none "field_declaration"
    [int, declarator "red", sign ",", comment, declarator "green", sign ";"]
  let pair : Tree := .node none "record_declaration" [sign "record", name "Pair",
    parameters [.node none "formal_parameter" [int, name "left"]],
    .node (some .body) "class_body" [sign leftBrace,
      .node none "compact_constructor_declaration" [name "Pair", block], sign rightBrace]]
  let paint : Tree := .node none "method_declaration"
    [(word "void_type" "void").withRole .type, name "paint", parameters [], block]
  programNode [.node none "enum_declaration" [sign "enum", name "Palette",
    .node (some .body) "enum_body" [sign leftBrace, .node none "enum_constant" [name "RED"],
      .node none "enum_body_declarations" [sign ";", fields, pair, comment, paint],
      sign rightBrace]]]

theorem declarations_kept_palette :
    paletteTree.FitsGrammar ∧ paletteTree.FitsDeclarations ∧
    List.Forall₂ Tree.Declares (paletteTree.namedChildren.filter Tree.isTypeDeclaration)
      (TypeDecl.listOfProgram paletteTree) ∧
    ReportsEach paletteTree (verdicts (TypeDecl.listOfProgram paletteTree)) ∧
    (TypeDecl.listOfProgram paletteTree).map (fun d => d.members.map Member.name?) =
      [[none, some "red", some "green", some "Pair", some "paint"]] ∧
    (verdicts (TypeDecl.listOfProgram paletteTree)).map Verdict.qualifiedName =
      ["Palette.paint", "Palette.Pair.Pair"] := by
  have hfits : paletteTree.FitsGrammar := by decide
  have hdeclarations : paletteTree.FitsDeclarations := by decide
  obtain ⟨hdeclares, hreports⟩ := declarations_kept.1 paletteTree hfits hdeclarations
  exact ⟨hfits, hdeclarations, hdeclares, hreports, by decide, by decide⟩

end AccessorScan
