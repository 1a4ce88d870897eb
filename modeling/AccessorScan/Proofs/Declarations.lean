import AccessorScan.Proofs.FieldIndex
import AccessorScan.Proofs.Shape
import Mathlib.Data.List.Forall2

/-!
# `Proofs.Declarations` — what a declaration declares, read off its tree

The parts of a declaration that the model is made of: its members wherever they stand in its body, its
parameters, its fields with those of the components of a record in front, and its result.

## Contents
- `Tree.declaredMembers`: the nodes of the members of a type.
- `Tree.parameterNodes`, `Tree.parameterName?`: what declares a parameter, and its name.
- `Tree.HasPlainResult`: the result is a keyword.
- `Tree.declaredFields`, `Tree.DeclaresPrivateField`: the fields of a type.
- `Member.MadeOf`, `Member.madeOf_ofNode`: what a member node makes.
- `TypeDecl.callables_of_ofTree?`, `TypeDecl.nested_of_ofTree?`, `TypeDecl.fields_of_ofTree?`: the
  model of a type has these members.
- `TypeDecl.forall₂_filterMap_ofTree?`, `Parameter.listOfDeclaration_forall₂`, `TypeRef.ofDeclaration_eq_iff`,
  `TypeDecl.hasPrivateInstance_iff`.
-/

namespace AccessorScan

namespace Tree

/-! ## Members -/

mutual

/-- The nodes of members that a child of a body stands for. The part of an enumeration after its
    constants stands for its own children; punctuation and comments stand for nothing. -/
def memberNodes : Tree → List Tree
  | leaf role token =>
      if token.isNamed && !(leaf role token).isComment then [leaf role token] else []
  | node role kind cs =>
      if kind = "enum_body_declarations" then memberNodesIn cs
      else if (node role kind cs).isComment then [] else [node role kind cs]

def memberNodesIn : List Tree → List Tree
  | [] => []
  | t :: ts => t.memberNodes ++ memberNodesIn ts

end

/-- The nodes of the members that a type declares in its body. -/
def declaredMembers (t : Tree) : List Tree :=
  ((t.part? .body).map fun body => memberNodesIn body.children).getD []

/-- The declaration of a type that has a name. -/
def isModelled (t : Tree) : Bool :=
  (TypeKind.ofDeclaration? t.kind).isSome && (t.part? .name).isSome

/-- The declaration of a method or a constructor. -/
def isCallable (t : Tree) : Bool :=
  ["method_declaration", "constructor_declaration", "compact_constructor_declaration"].contains t.kind

mutual

theorem within_of_mem_memberNodes : ∀ {t m : Tree}, m ∈ t.memberNodes → Within m t
  | leaf role token, m, h => by
      rw [memberNodes] at h
      split at h
      · obtain rfl := List.mem_singleton.mp h
        exact .self
      · cases h
  | node role kind cs, m, h => by
      rw [memberNodes] at h
      split at h
      · obtain ⟨c, hc, hm⟩ := within_of_mem_memberNodesIn h
        exact .child hc hm
      · split at h
        · cases h
        · obtain rfl := List.mem_singleton.mp h
          exact .self

theorem within_of_mem_memberNodesIn :
    ∀ {ts : List Tree} {m : Tree}, m ∈ memberNodesIn ts → ∃ t ∈ ts, Within m t
  | [], m, h => by cases h
  | t :: ts, m, h => by
      rw [memberNodesIn, List.mem_append] at h
      rcases h with h | h
      · exact ⟨t, List.mem_cons_self, within_of_mem_memberNodes h⟩
      · obtain ⟨s, hs, hm⟩ := within_of_mem_memberNodesIn h
        exact ⟨s, List.mem_cons_of_mem t hs, hm⟩

end

/-- A member stands in the body of its declaration. -/
theorem exists_child_within_of_mem_declaredMembers {t m : Tree} (h : m ∈ t.declaredMembers) :
    ∃ c ∈ t.children, Within m c := by
  rw [declaredMembers] at h
  cases hbody : t.part? .body with
  | none => simp [hbody] at h
  | some body =>
      rw [hbody] at h
      obtain ⟨c, hc, hm⟩ := within_of_mem_memberNodesIn h
      exact ⟨body, mem_of_part? hbody, .child hc hm⟩

theorem sizeOf_lt_of_mem_declaredMembers {t m : Tree} (h : m ∈ t.declaredMembers) :
    sizeOf m < sizeOf t := by
  obtain ⟨c, hc, hm⟩ := exists_child_within_of_mem_declaredMembers h
  exact Nat.lt_of_le_of_lt hm.sizeOf_le (sizeOf_lt_of_mem_children hc)

/-- Induction on how declarations are nested in a tree. -/
theorem declared_induction {P : Tree → Prop}
    (step : ∀ t : Tree, (∀ n ∈ t.declaredMembers, P n) → P t) (t : Tree) : P t :=
  step t fun n _ => declared_induction step n
termination_by sizeOf t
decreasing_by exact sizeOf_lt_of_mem_declaredMembers ‹_›

theorem within_of_mem_declaredMembers {t m : Tree} (h : m ∈ t.declaredMembers) : Within m t := by
  obtain ⟨c, hc, hm⟩ := exists_child_within_of_mem_declaredMembers h
  exact .child hc hm

theorem FitsGrammar.declaredMember {t m : Tree} (hfits : t.FitsGrammar)
    (h : m ∈ t.declaredMembers) : m.FitsGrammar :=
  hfits.within (within_of_mem_declaredMembers h)

/-! ## Parameters and results -/

def parameterKinds : List String := ["formal_parameter", "spread_parameter"]

/-- The declarations of parameters in the parameter list of a declaration. Receivers and comments are
    none. -/
def parameterNodes (t : Tree) : List Tree :=
  ((t.part? .parameters).map fun list =>
    list.namedChildren.filter fun c => parameterKinds.contains c.kind).getD []

/-- The name that the declaration of a parameter declares. -/
def parameterName? (t : Tree) : Option String :=
  if t.kind = "formal_parameter" then (t.part? .name).map text
  else (t.spreadDeclarator?.bind fun d => d.part? .name).map text

/-- The result of a method is the keyword of this kind, without dimensions after the parameters. -/
def HasPlainResult (t : Tree) (kind : String) : Prop :=
  (∃ result, t.part? .type = some result ∧ result.kind = kind) ∧ t.part? .dimensions = none

/-! ## Fields -/

/-- What decides whether a field may be the one of a property. -/
structure DeclaredField where
  name : String
  isPrivate : Bool
  isStatic : Bool
  deriving DecidableEq, Repr

/-- The keyword is among the modifiers of a declaration. -/
def hasModifier (t : Tree) (keyword : String) : Bool :=
  (t.children.find? fun c => c.kind == "modifiers").any fun ms =>
    ms.children.any fun c => c.kind == keyword

/-- The names of the declarators of a declaration. -/
def declaratorNames (t : Tree) : List String :=
  (t.parts .declarator).filterMap fun d => (d.part? .name).map text

/-- The fields that a member declares. A constant is static whether or not that is written. -/
def fieldsOfMember (t : Tree) : List DeclaredField :=
  if t.kind = "field_declaration" then
    t.declaratorNames.map fun n => ⟨n, t.hasModifier "private", t.hasModifier "static"⟩
  else if t.kind = "constant_declaration" then
    t.declaratorNames.map fun n => ⟨n, t.hasModifier "private", true⟩
  else []

/-- The fields of a type in order: one for each component of a record, then those of its body. -/
def declaredFields (t : Tree) : List DeclaredField :=
  (t.parameterNodes.filterMap parameterName?).map (fun n => ⟨n, true, false⟩) ++
    t.declaredMembers.flatMap fieldsOfMember

/-- The first field of the name `p` is private and not static. -/
def DeclaresPrivateField (t : Tree) (p : String) : Prop :=
  ∃ before after, t.declaredFields = before ++ ⟨p, true, false⟩ :: after ∧
    ∀ f ∈ before, f.name ≠ p

end Tree

/-! ## The members of the model -/

/-- The members that a member node makes. -/
def Member.ofNode (t : Tree) : List Member :=
  match TypeDecl.ofTree? t with
  | some d => [.type d]
  | none => listOfPart t

/-- The member that the node of a method or constructor makes. -/
def Member.ofCallable (t : Tree) : Member :=
  if t.kind = "method_declaration" then .method (.ofMethod t) else .constructor (.ofTree t .void)

/-- The nodes that declare a type. -/
def TypeKind.declarationKinds : List String :=
  ["class_declaration", "interface_declaration", "enum_declaration", "record_declaration"]

theorem TypeKind.ofDeclaration?_isSome_iff {kind : String} :
    (ofDeclaration? kind).isSome = true ↔ kind ∈ declarationKinds := by
  unfold ofDeclaration? declarationKinds
  split <;> simp_all

theorem TypeKind.mem_declarationKinds {kind : String} :
    kind ∈ declarationKinds ↔ kind = "class_declaration" ∨ kind = "interface_declaration" ∨
      kind = "enum_declaration" ∨ kind = "record_declaration" := by
  simp only [declarationKinds, List.mem_cons, List.not_mem_nil, or_false]

theorem Member.listOfPart_comment {t : Tree} (h : t.isComment = true) : listOfPart t = [] := by
  rw [Tree.isComment, Bool.or_eq_true, beq_iff_eq, beq_iff_eq] at h
  rcases h with h | h <;> simp [listOfPart, h]

/-- What declares a type but has no name is modelled by its kind. -/
theorem Member.listOfPart_type {t : Tree} (h : (TypeKind.ofDeclaration? t.kind).isSome = true) :
    listOfPart t = [.other t.kind] := by
  rw [TypeKind.ofDeclaration?_isSome_iff, TypeKind.mem_declarationKinds] at h
  rcases h with h | h | h | h <;> simp [listOfPart, h]

theorem TypeDecl.ofTree?_isSome (t : Tree) : (ofTree? t).isSome = t.isModelled := by
  unfold ofTree? ofParts? Tree.isModelled
  cases TypeKind.ofDeclaration? t.kind <;> cases t.part? .name <;> rfl

theorem TypeDecl.ofTree?_leaf (role : Option Role) (token : Token) :
    ofTree? (.leaf role token) = none := by
  rw [← Option.not_isSome_iff_eq_none, ofTree?_isSome, Tree.isModelled, Bool.and_eq_true, not_and]
  intro _
  exact Bool.false_ne_true

theorem TypeDecl.ofTree?_comment {t : Tree} (h : t.isComment = true) : ofTree? t = none := by
  rw [← Option.not_isSome_iff_eq_none, ofTree?_isSome, Tree.isModelled, Bool.and_eq_true,
    TypeKind.ofDeclaration?_isSome_iff, TypeKind.mem_declarationKinds]
  rw [Tree.isComment, Bool.or_eq_true, beq_iff_eq, beq_iff_eq] at h
  rcases h with h | h <;> simp [h]

theorem Member.ofNode_comment {t : Tree} (h : t.isComment = true) : ofNode t = [] := by
  rw [ofNode, TypeDecl.ofTree?_comment h]
  exact listOfPart_comment h

theorem Member.listOfTree_leaf (role : Option Role) (token : Token) :
    listOfTree (.leaf role token) = (Tree.leaf role token).memberNodes.flatMap ofNode := by
  have hnode : ofNode (.leaf role token) = listOfPart (.leaf role token) := by
    rw [ofNode, TypeDecl.ofTree?_leaf]
  rw [listOfTree, Tree.memberNodes]
  cases hnamed : token.isNamed with
  | false => rfl
  | true =>
      cases hcomment : (Tree.leaf role token).isComment with
      | false => simp [hnode]
      | true => simp [listOfPart_comment hcomment]

theorem Member.listOfTree_node {kind : String} (h : kind ≠ "enum_body_declarations")
    (role : Option Role) (cs : List Tree) :
    listOfTree (.node role kind cs) = ofNode (.node role kind cs) := by
  rw [listOfTree, if_neg h, ofNode, TypeDecl.ofTree?, Tree.children]
  by_cases htype : (TypeKind.ofDeclaration? kind).isSome = true
  · rw [if_pos htype, listOfPart_type (t := .node role kind cs) htype]
    rfl
  · rw [if_neg htype, TypeDecl.ofParts?, Tree.kind, Option.not_isSome_iff_eq_none.mp htype]
    rfl

mutual

theorem Member.listOfTree_eq : ∀ t : Tree, Member.listOfTree t = t.memberNodes.flatMap Member.ofNode
  | .leaf role token => Member.listOfTree_leaf role token
  | .node role kind cs => by
      rw [Tree.memberNodes]
      by_cases henum : kind = "enum_body_declarations"
      · rw [Member.listOfTree, if_pos henum, if_pos henum, Member.listOfTrees_eq cs]
      · rw [Member.listOfTree_node henum, if_neg henum]
        cases hcomment : (Tree.node role kind cs).isComment with
        | false => simp
        | true => simp [Member.ofNode_comment hcomment]

theorem Member.listOfTrees_eq :
    ∀ ts : List Tree, Member.listOfTrees ts = (Tree.memberNodesIn ts).flatMap Member.ofNode
  | [] => rfl
  | t :: ts => by
      rw [Member.listOfTrees, Tree.memberNodesIn, List.flatMap_append, Member.listOfTree_eq t,
        Member.listOfTrees_eq ts]

end

theorem Member.listOfBody_eq (t : Tree) :
    listOfBody t.children = t.declaredMembers.flatMap ofNode := by
  have hbody : ∀ cs : List Tree, listOfBody cs =
      (((cs.filter fun c => c.role? == some .body).head?.map fun body =>
        Tree.memberNodesIn body.children).getD []).flatMap ofNode := by
    intro cs
    induction cs with
    | nil => rfl
    | cons c cs ih =>
        -- the first child with this role is the body; a leaf is one without members
        by_cases hrole : c.role? = some .body
        · rw [List.filter_cons_of_pos (by simp [hrole])]
          cases c with
          | leaf role token =>
              obtain rfl : role = some .body := hrole
              rfl
          | node role kind ds =>
              obtain rfl : role = some .body := hrole
              exact listOfTrees_eq ds
        · rw [List.filter_cons_of_neg (by simp [hrole]), ← ih]
          rw [listOfBody]
          · rintro token rfl
            exact hrole rfl
          · rintro kind ds rfl
            exact hrole rfl
  exact hbody t.children

/-! ## Members by their sort -/

theorem Member.ofNode_of_modelled {t : Tree} {d : TypeDecl} (h : TypeDecl.ofTree? t = some d) :
    ofNode t = [.type d] := by
  rw [ofNode, h]

theorem Member.ofNode_of_not_modelled {t : Tree} (h : TypeDecl.ofTree? t = none) :
    ofNode t = listOfPart t := by
  rw [ofNode, h]

/-- What a member node makes, by what it declares. -/
inductive Member.MadeOf (t : Tree) : List Member → Prop where
  | type {d : TypeDecl} (h : TypeDecl.ofTree? t = some d) : MadeOf t [.type d]
  | fields (hkind : t.kind = "field_declaration") : MadeOf t ((Field.listOfTree t []).map .field)
  | constants (hkind : t.kind = "constant_declaration") :
      MadeOf t ((Field.listOfTree t constantModifiers).map .field)
  | callable (hcallable : t.isCallable = true) : MadeOf t [ofCallable t]
  | comment (hcomment : t.isComment = true) : MadeOf t []
  | other (htype : t.isModelled = false)
      (hfields : ¬(t.kind = "field_declaration" ∨ t.kind = "constant_declaration"))
      (hcallable : t.isCallable = false) : MadeOf t [.other t.kind]

/-- A member node makes what it declares. -/
theorem Member.madeOf_ofNode (t : Tree) : MadeOf t (ofNode t) := by
  cases h : TypeDecl.ofTree? t with
  | some d =>
      rw [ofNode_of_modelled h]
      exact .type h
  | none =>
      have hmodelled : t.isModelled = false := by rw [← TypeDecl.ofTree?_isSome, h]; rfl
      have hcallable : ∀ m, t.isCallable = true → m = ofCallable t → MadeOf t [m] := by
        rintro m ht rfl
        exact .callable ht
      rw [ofNode_of_not_modelled h, listOfPart]
      split
      next hkind => exact .fields hkind
      next hkind => exact .constants hkind
      next hkind => exact hcallable _ (by simp [Tree.isCallable, hkind]) (by simp [ofCallable, hkind])
      next hkind => exact hcallable _ (by simp [Tree.isCallable, hkind]) (by simp [ofCallable, hkind])
      next hkind => exact hcallable _ (by simp [Tree.isCallable, hkind]) (by simp [ofCallable, hkind])
      next hkind => exact .comment (by simp [Tree.isComment, hkind])
      next hkind => exact .comment (by simp [Tree.isComment, hkind])
      next => exact .other hmodelled (by simp_all) (by simp_all [Tree.isCallable])

theorem Member.filterMap_type?_ofNode (t : Tree) :
    (ofNode t).filterMap type? = (TypeDecl.ofTree? t).toList := by
  cases h : TypeDecl.ofTree? t with
  | some d => simp [ofNode_of_modelled h, type?]
  | none =>
      rw [ofNode_of_not_modelled h, listOfPart]
      split <;> simp [type?, Function.comp_def]

/-- Only the declaration of a type is modelled as one. -/
theorem TypeDecl.kind_mem_of_ofTree? {t : Tree} {d : TypeDecl} (h : ofTree? t = some d) :
    t.kind ∈ TypeKind.declarationKinds := by
  have hmodelled : t.isModelled = true := by rw [← ofTree?_isSome, h]; rfl
  exact TypeKind.ofDeclaration?_isSome_iff.mp (Bool.and_eq_true_iff.mp hmodelled).1

theorem Member.filter_callable?_ofNode (t : Tree) :
    ((ofNode t).filter fun m => m.callable?.isSome) =
      if t.isCallable then [ofCallable t] else [] := by
  cases h : TypeDecl.ofTree? t with
  | some d =>
      have hkind := TypeKind.mem_declarationKinds.mp (TypeDecl.kind_mem_of_ofTree? h)
      have hcallable : t.isCallable = false := by
        rcases hkind with hk | hk | hk | hk <;> simp [Tree.isCallable, hk]
      simp [ofNode_of_modelled h, hcallable, callable?]
  | none =>
      rw [ofNode_of_not_modelled h, listOfPart]
      split <;> simp_all [callable?, Tree.isCallable, ofCallable]

/-! ## Fields of the model -/

/-- What is asked of a field of the model. -/
def Tree.DeclaredField.ofField (f : Field) : DeclaredField := ⟨f.name, f.isPrivate, f.has .static⟩

theorem Modifier.ofKeyword?_eq_some_iff {s : String} {m : Modifier} :
    ofKeyword? s = some m ↔ s = m.keyword := by
  constructor
  · intro h
    unfold ofKeyword? at h
    split at h <;> simp_all [keyword] <;> (subst h; rfl)
  · rintro rfl
    exact ofKeyword?_keyword m

theorem Modifier.contains_listOfTree (t : Tree) (m : Modifier) :
    (listOfTree t).contains m = t.hasModifier m.keyword := by
  unfold listOfTree Tree.hasModifier
  cases t.children.find? fun c => c.kind == "modifiers" with
  | none => rfl
  | some ms =>
      rw [Bool.eq_iff_iff, Option.any_some, List.contains_iff_mem, List.mem_filterMap,
        List.any_eq_true]
      simp only [ofKeyword?_eq_some_iff, beq_iff_eq]

/-- Implied modifiers are added to those that are written. -/
theorem Modifier.contains_foldl_implied (implied written : List Modifier) (m : Modifier) :
    (implied.foldl (fun ms x => if ms.contains x then ms else ms ++ [x]) written).contains m =
      (written.contains m || implied.contains m) := by
  induction implied generalizing written with
  | nil => simp
  | cons x implied ih =>
      have hstep : (if written.contains x then written else written ++ [x]).contains m =
          (written.contains m || m == x) := by
        by_cases hx : written.contains x = true
        · rw [if_pos hx]
          by_cases hm : m = x
          · rw [hm, hx]
            rfl
          · simp [hm]
        · rw [if_neg hx, List.contains_append, List.contains_cons, List.contains_nil, Bool.or_false]
      rw [List.foldl_cons, ih, hstep, List.contains_cons, Bool.or_assoc]

theorem Field.ofField_listOfTree (t : Tree) (implied : List Modifier) :
    (listOfTree t implied).map Tree.DeclaredField.ofField =
      t.declaratorNames.map fun n =>
        ⟨n, t.hasModifier "private" || implied.contains .privateAccess,
          t.hasModifier "static" || implied.contains .static⟩ := by
  rw [listOfTree, Tree.declaratorNames, List.map_filterMap, List.map_filterMap]
  refine List.filterMap_congr fun d _ => ?_
  rw [Option.map_map, Option.map_map]
  refine Option.map_congr fun name _ => ?_
  simp only [Function.comp_apply, Tree.DeclaredField.ofField, isPrivate, has,
    Modifier.contains_foldl_implied, Modifier.contains_listOfTree, Modifier.keyword]

theorem Member.ofField_ofNode (t : Tree) :
    ((ofNode t).filterMap field?).map Tree.DeclaredField.ofField = t.fieldsOfMember := by
  cases h : TypeDecl.ofTree? t with
  | some d =>
      have hkind := TypeKind.mem_declarationKinds.mp (TypeDecl.kind_mem_of_ofTree? h)
      rcases hkind with hk | hk | hk | hk <;>
        simp [ofNode_of_modelled h, Tree.fieldsOfMember, hk, field?]
  | none =>
      rw [ofNode_of_not_modelled h, listOfPart]
      split <;> simp_all [field?, Tree.fieldsOfMember, Function.comp_def, Field.ofField_listOfTree,
        constantModifiers]

/-! ## Parameters of the model -/

/-- In a tree of the grammar the declaration of a parameter makes one, of the name that it declares. -/
theorem Parameter.exists_ofTree? {t : Tree} (hfits : t.FitsGrammar)
    (hkind : t.kind ∈ Tree.parameterKinds) :
    ∃ p, ofTree? t = some p ∧ t.parameterName? = some p.name := by
  simp only [Tree.parameterKinds, List.mem_cons, List.not_mem_nil, or_false] at hkind
  rcases hkind with h | h
  · obtain ⟨name, type, hname, htype⟩ := hfits.formal h
    exact ⟨_, by simp only [ofTree?, h, hname, htype]; rfl,
      by rw [Tree.parameterName?, if_pos h, hname]; rfl⟩
  · obtain ⟨d, name, type, hd, hname, htype⟩ := hfits.spread h
    have hne : t.kind ≠ "formal_parameter" := by simp [h]
    refine ⟨⟨name.text, .reference (type.text ++ "...")⟩, ?_, ?_⟩
    · rw [Tree.spreadDeclarator?] at hd
      rw [Tree.spreadType?] at htype
      simp only [ofTree?, h, ofSpread?, hd, htype, Option.bind_eq_bind, Option.bind_some, hname,
        Option.pure_def]
    · rw [Tree.parameterName?, if_neg hne, hd, Option.bind_some, hname]
      rfl

theorem Parameter.ofTree?_eq_none {t : Tree} (hkind : t.kind ∉ Tree.parameterKinds) :
    ofTree? t = none := by
  simp only [Tree.parameterKinds, List.mem_cons, List.not_mem_nil, or_false, not_or] at hkind
  unfold ofTree?
  split
  next h => exact absurd h hkind.1
  next h => exact absurd h hkind.2
  next => rfl

theorem Parameter.forall₂_filterMap {cs : List Tree} (hfits : ∀ c ∈ cs, c.FitsGrammar) :
    List.Forall₂ (fun c p => c.parameterName? = some p.name)
      (cs.filter fun c => Tree.parameterKinds.contains c.kind) (cs.filterMap ofTree?) := by
  induction cs with
  | nil => exact .nil
  | cons c cs ih =>
      have hrest := ih fun x hx => hfits x (List.mem_cons_of_mem c hx)
      by_cases hkind : c.kind ∈ Tree.parameterKinds
      · obtain ⟨p, hp, hname⟩ := exists_ofTree? (hfits c List.mem_cons_self) hkind
        rw [List.filter_cons_of_pos (by simpa using hkind), List.filterMap_cons_some hp]
        exact .cons hname hrest
      · rw [List.filter_cons_of_neg (by simpa using hkind),
          List.filterMap_cons_none (ofTree?_eq_none hkind)]
        exact hrest

/-- **Parameters.** Each declaration of a parameter makes one parameter of its name. -/
theorem Parameter.listOfDeclaration_forall₂ {t : Tree} (hfits : t.FitsGrammar) :
    List.Forall₂ (fun c p => c.parameterName? = some p.name) t.parameterNodes
      (listOfDeclaration t) := by
  unfold Tree.parameterNodes listOfDeclaration
  cases hlist : t.part? .parameters with
  | none => exact .nil
  | some list =>
      have hlistFits := hfits.part? hlist
      exact forall₂_filterMap fun c hc => hlistFits.child (Tree.mem_of_mem_namedChildren hc)

theorem Parameter.map_name_listOfDeclaration {t : Tree} (hfits : t.FitsGrammar) :
    (listOfDeclaration t).map name = t.parameterNodes.filterMap Tree.parameterName? := by
  have h := listOfDeclaration_forall₂ hfits
  generalize t.parameterNodes = nodes, listOfDeclaration t = parameters at h ⊢
  induction h with
  | nil => rfl
  | cons h _ ih => rw [List.map_cons, List.filterMap_cons_some h, ih]

/-! ## Results of the model -/

/-- Under the grammar only the two keywords are modelled as `void` and `boolean`. -/
theorem TypeRef.ofTree_cases {t : Tree} (hfits : t.FitsGrammar) :
    t.kind = "void_type" ∧ ofTree t none = .void ∨
      t.kind = "boolean_type" ∧ ofTree t none = .boolean ∨
        t.kind ≠ "void_type" ∧ t.kind ≠ "boolean_type" ∧
          ofTree t none ≠ .void ∧ ofTree t none ≠ .boolean := by
  have hkind := hfits.kind_fits
  by_cases hvoid : t.kind = "void_type"
  · simp only [Tree.fitsKind, hvoid, beq_iff_eq] at hkind
    exact .inl ⟨hvoid, by simp [ofTree, hvoid, hkind, ofKeyword]⟩
  · by_cases hboolean : t.kind = "boolean_type"
    · simp only [Tree.fitsKind, hboolean, beq_iff_eq] at hkind
      exact .inr (.inl ⟨hboolean, by simp [ofTree, hboolean, hkind, ofKeyword]⟩)
    · refine .inr (.inr ⟨hvoid, hboolean, ?_⟩)
      by_cases hintegral : t.kind = "integral_type"
      · simp only [Tree.fitsKind, hintegral, Tree.integralWords, List.contains_iff_mem,
          List.mem_cons, List.not_mem_nil, or_false] at hkind
        rcases hkind with h | h | h | h | h <;> simp [ofTree, hintegral, h, ofKeyword]
      · by_cases hfloating : t.kind = "floating_point_type"
        · simp only [Tree.fitsKind, hfloating, List.contains_iff_mem, List.mem_cons,
            List.not_mem_nil, or_false] at hkind
          rcases hkind with h | h <;> simp [ofTree, hfloating, h, ofKeyword]
        · simp [ofTree, hvoid, hboolean, hintegral, hfloating]

/-- A result is a keyword exactly where the keyword is written and no dimensions are. -/
theorem TypeRef.ofDeclaration_eq_iff {t : Tree} (hfits : t.FitsGrammar) {r : TypeRef} {kind : String}
    (hr : ∀ text, r ≠ .reference text)
    (hkind : ∀ type : Tree, type.FitsGrammar → (ofTree type none = r ↔ type.kind = kind)) :
    ofDeclaration t (t.part? .dimensions) = r ↔ t.HasPlainResult kind := by
  unfold ofDeclaration Tree.HasPlainResult
  cases htype : t.part? .type with
  | none => simpa using (hr _).symm
  | some type =>
      cases t.part? .dimensions with
      | none => simpa using hkind type (hfits.part? htype)
      | some d => simpa [ofTree] using (hr _).symm

theorem TypeRef.ofDeclaration_eq_void_iff {t : Tree} (hfits : t.FitsGrammar) :
    ofDeclaration t (t.part? .dimensions) = .void ↔ t.HasPlainResult "void_type" := by
  refine ofDeclaration_eq_iff hfits (fun _ => TypeRef.noConfusion) fun type htype => ?_
  rcases ofTree_cases htype with ⟨hk, h⟩ | ⟨hk, h⟩ | ⟨hk, -, h, -⟩ <;> simp [hk, h]

theorem TypeRef.ofDeclaration_eq_boolean_iff {t : Tree} (hfits : t.FitsGrammar) :
    ofDeclaration t (t.part? .dimensions) = .boolean ↔ t.HasPlainResult "boolean_type" := by
  refine ofDeclaration_eq_iff hfits (fun _ => TypeRef.noConfusion) fun type htype => ?_
  rcases ofTree_cases htype with ⟨hk, h⟩ | ⟨hk, h⟩ | ⟨-, hk, -, h⟩ <;> simp [hk, h]

/-! ## The model of a type -/

namespace TypeDecl

variable {t : Tree} {d : TypeDecl}

theorem members_of_ofTree? (h : ofTree? t = some d) :
    d.members = (Field.listOfComponents t).map Member.field ++
      t.declaredMembers.flatMap Member.ofNode := by
  rw [← Member.listOfBody_eq]
  simp only [ofTree?, ofParts?, Option.bind_eq_bind, Option.bind_eq_some_iff] at h
  obtain ⟨kind, -, name, -, hd⟩ := h
  rw [← Option.some.inj hd]

theorem name_of_ofTree? (h : ofTree? t = some d) : d.name = t.partText .name := by
  simp only [ofTree?, ofParts?, Option.bind_eq_bind, Option.bind_eq_some_iff] at h
  obtain ⟨kind, -, name, hname, hd⟩ := h
  rw [← Option.some.inj hd, Tree.partText, hname]
  rfl

theorem line_of_ofTree? (h : ofTree? t = some d) : d.line = t.line := by
  simp only [ofTree?, ofParts?, Option.bind_eq_bind, Option.bind_eq_some_iff] at h
  obtain ⟨kind, -, name, -, hd⟩ := h
  rw [← Option.some.inj hd]

theorem ofDeclaration?_of_ofTree? (h : ofTree? t = some d) :
    TypeKind.ofDeclaration? t.kind = some d.kind := by
  simp only [ofTree?, ofParts?, Option.bind_eq_bind, Option.bind_eq_some_iff] at h
  obtain ⟨kind, hkind, name, -, hd⟩ := h
  rw [← Option.some.inj hd, hkind]

/-- Of some nodes those that declare a type with a name make one type each, in order. -/
theorem forall₂_filterMap_ofTree? (ts : List Tree) :
    List.Forall₂ (fun t d => t ∈ ts ∧ ofTree? t = some d) (ts.filter Tree.isModelled)
      (ts.filterMap ofTree?) := by
  induction ts with
  | nil => exact .nil
  | cons t ts ih =>
      have hrest := ih.imp fun x _ hx => And.intro (List.mem_cons_of_mem t hx.1) hx.2
      have hmodelled := ofTree?_isSome t
      cases hd : ofTree? t with
      | none =>
          rw [hd] at hmodelled
          rw [List.filter_cons_of_neg (by simp [← hmodelled]), List.filterMap_cons_none hd]
          exact hrest
      | some d =>
          rw [hd] at hmodelled
          rw [List.filter_cons_of_pos (by simp [← hmodelled]), List.filterMap_cons_some hd]
          exact .cons ⟨List.mem_cons_self, hd⟩ hrest

/-- The callables of a type are those among its members. -/
theorem callables_of_ofTree? (h : ofTree? t = some d) :
    d.callables = (t.declaredMembers.filter Tree.isCallable).map Member.ofCallable := by
  have hcomponents : ((Field.listOfComponents t).map Member.field).filter
      (fun m => m.callable?.isSome) = [] := by
    rw [List.filter_map, List.map_eq_nil_iff, List.filter_eq_nil_iff]
    exact fun _ _ => Bool.false_ne_true
  rw [callables, members_of_ofTree? h, List.filter_append, hcomponents, List.nil_append,
    List.filter_flatMap]
  induction t.declaredMembers with
  | nil => rfl
  | cons m ms ih =>
      rw [List.flatMap_cons, ih, Member.filter_callable?_ofNode]
      by_cases hm : m.isCallable = true
      · rw [if_pos hm, List.filter_cons_of_pos hm, List.map_cons, List.singleton_append]
      · rw [if_neg hm, List.filter_cons_of_neg hm, List.nil_append]

/-- So are its nested types. -/
theorem nested_of_ofTree? (h : ofTree? t = some d) :
    d.nested = t.declaredMembers.filterMap ofTree? := by
  have hcomponents : ((Field.listOfComponents t).map Member.field).filterMap Member.type? = [] := by
    rw [List.filterMap_map, List.filterMap_eq_nil_iff]
    exact fun _ _ => rfl
  rw [nested, members_of_ofTree? h, List.filterMap_append, hcomponents, List.nil_append,
    List.filterMap_flatMap, List.filterMap_eq_flatMap_toList]
  exact List.flatMap_congr fun m _ => Member.filterMap_type?_ofNode m

/-- The fields of a type are those of its parameters, then those of its members. -/
theorem map_fields_of_ofTree? (h : ofTree? t = some d) :
    d.fields.map Tree.DeclaredField.ofField =
      ((Parameter.listOfDeclaration t).map Parameter.name).map (fun n => ⟨n, true, false⟩) ++
        t.declaredMembers.flatMap Tree.fieldsOfMember := by
  have hcomponents : (((Field.listOfComponents t).map Member.field).filterMap Member.field?).map
        Tree.DeclaredField.ofField =
      ((Parameter.listOfDeclaration t).map Parameter.name).map (fun n => ⟨n, true, false⟩) := by
    rw [Field.listOfComponents, Parameter.listOfDeclaration]
    cases t.part? .parameters with
    | none => rfl
    | some list => simp [Member.field?, Tree.DeclaredField.ofField, Field.isPrivate, Field.has,
        Function.comp_def]
  have hmembers : ((t.declaredMembers.flatMap Member.ofNode).filterMap Member.field?).map
      Tree.DeclaredField.ofField = t.declaredMembers.flatMap Tree.fieldsOfMember := by
    rw [List.filterMap_flatMap, List.map_flatMap]
    exact List.flatMap_congr fun m _ => Member.ofField_ofNode m
  rw [fields, members_of_ofTree? h, List.filterMap_append, List.map_append, hcomponents, hmembers]

theorem fields_of_ofTree? (h : ofTree? t = some d) (hfits : t.FitsGrammar) :
    d.fields.map Tree.DeclaredField.ofField = t.declaredFields := by
  rw [map_fields_of_ofTree? h, Parameter.map_name_listOfDeclaration hfits, Tree.declaredFields]

/-- Whether the first field of a name is private and not static can be told from what is asked of the
    fields. -/
theorem hasPrivateInstance_iff_split {p : String} :
    d.HasPrivateInstance p ↔
      ∃ before after, d.fields.map Tree.DeclaredField.ofField = before ++ ⟨p, true, false⟩ :: after ∧
        ∀ f ∈ before, f.name ≠ p := by
  have hfield : ∀ f : Field, Tree.DeclaredField.ofField f = ⟨p, true, false⟩ ↔
      f.name = p ∧ .privateAccess ∈ f.modifiers ∧ .static ∉ f.modifiers := by
    intro f
    simp [Tree.DeclaredField.ofField, Field.isPrivate, Field.has]
  constructor
  · rintro ⟨f, ⟨before, after, hsplit, hname, hbefore⟩, hprivate, hstatic⟩
    refine ⟨before.map .ofField, after.map .ofField, ?_, ?_⟩
    · rw [hsplit, List.map_append, List.map_cons, (hfield f).mpr ⟨hname, hprivate, hstatic⟩]
    · intro g hg
      obtain ⟨g', hg', rfl⟩ := List.mem_map.mp hg
      exact hbefore g' hg'
  · rintro ⟨before, after, hsplit, hbefore⟩
    obtain ⟨before', rest, hfields, rfl, hrest⟩ := List.map_eq_append_iff.mp hsplit
    obtain ⟨f, after', rfl, hf, -⟩ := List.map_eq_cons_iff.mp hrest
    obtain ⟨hname, hprivate, hstatic⟩ := (hfield f).mp hf
    refine ⟨f, ⟨before', after', hfields, hname, fun g hg => ?_⟩, hprivate, hstatic⟩
    exact hbefore _ (List.mem_map_of_mem hg)

/-- **Fields.** The first field of a name is private and not static in the model exactly if it is so in
    the tree. -/
theorem hasPrivateInstance_iff (h : ofTree? t = some d) (hfits : t.FitsGrammar) {p : String} :
    d.HasPrivateInstance p ↔ t.DeclaresPrivateField p := by
  rw [hasPrivateInstance_iff_split, fields_of_ofTree? h hfits, Tree.DeclaresPrivateField]

end TypeDecl

end AccessorScan
