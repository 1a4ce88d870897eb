import AccessorScan.Proofs.Bodies
import AccessorScan.Proofs.Contents
import AccessorScan.Proofs.Declarations
import AccessorScan.Proofs.Moving
import AccessorScan.Proofs.Occurrences
import AccessorScan.Proofs.Outline
import AccessorScan.Scan.Basic

/-!
# `Proofs.Lowering` — moving a source down changes nothing but lines

A model is read off the kinds, roles, texts and lines of trees. The text of a tree begins at its first leaf, so
of the trees of a source that is moved down only the lines are different, although the first leaf of all stands
behind other blanks. From there on each thing that is read off is shown to move: the parts of a node, types and
bodies, members, the verdicts on them, and the report.

## Contents
- `Tree.Lowered`: trees of one form, with the same texts and with lines that are moved down.
- `Tree.Moves.forall₂_lowered`: such are the trees that are moved down.
- `Tree.Lowered.part?`, `Tree.Lowered.content?`, …: the ways to go on from a tree.
- `Field.lowered`, `Callable.lowered`, `TypeDecl.lowered`, `Verdict.lowered`, `FileReport.lowered`.
- `TypeDecl.ofTree?_lowered`, `verdicts_lowered`: models and verdicts.
- `source_moved`, with `nestedSource`.
-/

namespace AccessorScan

variable {k : Nat}

/-! ## Trees -/

namespace Tree

/-- The tree `u` is the tree `t`, `k` lines further down. What stands before their first leaves does not
    count. -/
inductive Lowered (k : Nat) : Tree → Tree → Prop where
  | leaf {role : Option Role} {x y : Token} (h : x.Moves k true y) : Lowered k (.leaf role x) (.leaf role y)
  | node {role : Option Role} {kind : String} {cs ds : List Tree} (htext : textAll ds = textAll cs)
      (hline : lineAll ds = lineAll cs + k) (hchildren : List.Forall₂ (Lowered k) cs ds) :
      Lowered k (.node role kind cs) (.node role kind ds)

namespace Moves

variable {first left : Bool} {ts us : List Tree}

/-- Behind the first leaf of the source the blanks are the same, too. -/
theorem coveredAll_eq (h : Moves k first ts us left) (hfirst : first = false) :
    coveredAll us = coveredAll ts := by
  induction h with
  | nil _ => rfl
  | leaf hx _ ih => rw [coveredAll, coveredAll, covered, covered, hx.blank hfirst, hx.text, ih rfl]
  | node hcs _ ihcs ih =>
      subst hfirst
      rw [coveredAll, coveredAll, covered, covered, ihcs rfl, ih hcs.left_eq_false]

/-- Among trees that are not empty the first leaf of the source does not still follow. They start `k` lines
    further down. -/
theorem left_and_line_eq (h : Moves k first ts us left) (hts : ts ≠ [])
    (hfilled : ∀ t ∈ ts, t.everywhere isFilled = true) : left = false ∧ lineAll us = lineAll ts + k := by
  induction h with
  | nil _ => exact absurd rfl hts
  | leaf hx hrest _ => exact ⟨hrest.left_eq_false, hx.line⟩
  | node _ hrest ih _ =>
      obtain ⟨hne, hinside⟩ := inside_of_filled (hfilled _ List.mem_cons_self)
      obtain ⟨rfl, hline⟩ := ih hne hinside
      exact ⟨hrest.left_eq_false, hline⟩

theorem textAll_eq (h : Moves k first ts us left) (hfilled : ∀ t ∈ ts, t.everywhere isFilled = true) :
    textAll us = textAll ts := by
  induction h with
  | nil _ => rfl
  | leaf hx hrest _ => rw [textAll, textAll, text, text, hx.text, hrest.coveredAll_eq rfl]
  | node hcs hrest ih _ =>
      -- the first leaf of the source is inside if it is here at all, so it is not behind
      obtain ⟨hne, hinside⟩ := inside_of_filled (hfilled _ List.mem_cons_self)
      have hbehind := (hcs.left_and_line_eq hne hinside).1
      rw [textAll, textAll, text, text, ih hinside, hrest.coveredAll_eq hbehind]

/-- Trees that are not empty and are moved down, one by one. -/
theorem forall₂_lowered (h : Moves k first ts us left)
    (hfilled : ∀ t ∈ ts, t.everywhere isFilled = true) : List.Forall₂ (Lowered k) ts us := by
  induction h with
  | nil _ => exact .nil
  | leaf hx _ ih => exact .cons (.leaf { hx with blank := nofun }) (ih fun t ht => hfilled t (.tail _ ht))
  | node hcs _ ihcs ih =>
      obtain ⟨hne, hinside⟩ := inside_of_filled (hfilled _ List.mem_cons_self)
      have hline := (hcs.left_and_line_eq hne hinside).2
      exact .cons (.node (hcs.textAll_eq hinside) hline (ihcs hinside)) (ih fun t ht => hfilled t (.tail _ ht))

end Moves

namespace Lowered

variable {t u : Tree}

theorem role?_eq (h : Lowered k t u) : u.role? = t.role? := by
  cases h <;> rfl

theorem kind_eq (h : Lowered k t u) : u.kind = t.kind := by
  cases h with
  | leaf h => exact h.kind
  | node _ _ _ => rfl

theorem isNamed_eq (h : Lowered k t u) : u.isNamed = t.isNamed := by
  cases h with
  | leaf h => exact h.isNamed
  | node _ _ _ => rfl

theorem isMissing_eq (h : Lowered k t u) : u.isMissing = t.isMissing := by
  cases h with
  | leaf h => exact h.isMissing
  | node _ _ _ => rfl

theorem isComment_eq (h : Lowered k t u) : u.isComment = t.isComment := by
  rw [isComment, isComment, h.kind_eq]

theorem text_eq (h : Lowered k t u) : u.text = t.text := by
  cases h with
  | leaf h => exact h.text
  | node htext _ _ => exact htext

theorem line_eq (h : Lowered k t u) : u.line = t.line + k := by
  cases h with
  | leaf h => exact h.line
  | node _ hline _ => exact hline

theorem forall₂_children (h : Lowered k t u) : List.Forall₂ (Lowered k) t.children u.children := by
  cases h with
  | leaf _ => exact .nil
  | node _ _ hchildren => exact hchildren

end Lowered

/-! ## Lists of trees -/

section Lists

variable {ts us : List Tree} {x y : Option Tree} {α : Type}

theorem filter_lowered {p : Tree → Bool} (h : List.Forall₂ (Lowered k) ts us)
    (hp : ∀ {t u}, Lowered k t u → p u = p t) : List.Forall₂ (Lowered k) (ts.filter p) (us.filter p) := by
  refine List.rel_filter ?_ h
  intro t u h
  show p t = true ↔ p u = true
  rw [hp h]

theorem head?_lowered (h : List.Forall₂ (Lowered k) ts us) : Option.Rel (Lowered k) ts.head? us.head? := by
  cases h with
  | nil => exact .none
  | cons h _ => exact .some h

theorem find?_lowered {p : Tree → Bool} (h : List.Forall₂ (Lowered k) ts us)
    (hp : ∀ {t u}, Lowered k t u → p u = p t) : Option.Rel (Lowered k) (ts.find? p) (us.find? p) := by
  rw [← List.head?_filter, ← List.head?_filter]
  exact head?_lowered (filter_lowered h hp)

/-- What is made of each tree moves, so all that is made of them does. -/
theorem flatMap_lowered {f g : Tree → List α} {m : α → α} (h : List.Forall₂ (Lowered k) ts us)
    (hfg : ∀ t ∈ ts, ∀ u, Lowered k t u → g u = (f t).map m) : us.flatMap g = (ts.flatMap f).map m := by
  induction h with
  | nil => rfl
  | @cons t u ts us h _ ih =>
      rw [List.flatMap_cons, List.flatMap_cons, List.map_append, hfg t List.mem_cons_self u h,
        ih fun s hs => hfg s (.tail _ hs)]

theorem filterMap_lowered {f g : Tree → Option α} {m : α → α} (h : List.Forall₂ (Lowered k) ts us)
    (hfg : ∀ {t u}, Lowered k t u → g u = (f t).map m) : us.filterMap g = (ts.filterMap f).map m := by
  induction h with
  | nil => rfl
  | cons h _ ih => rw [List.filterMap_cons, List.filterMap_cons, hfg h, ih]; cases f _ <;> rfl

theorem filterMap_eq_of_lowered {f g : Tree → Option α} (h : List.Forall₂ (Lowered k) ts us)
    (hfg : ∀ {t u}, Lowered k t u → g u = f t) : us.filterMap g = ts.filterMap f := by
  rw [filterMap_lowered (m := id) h fun h => by rw [hfg h, Option.map_id_fun, id], List.map_id_fun, id]

theorem bind_eq_of_lowered {f g : Tree → Option α} (h : Option.Rel (Lowered k) x y)
    (hfg : ∀ {t u}, Lowered k t u → g u = f t) : y.bind g = x.bind f := by
  cases h with
  | none => rfl
  | some h => exact hfg h

theorem map_eq_of_lowered {f g : Tree → α} (h : Option.Rel (Lowered k) x y)
    (hfg : ∀ {t u}, Lowered k t u → g u = f t) : y.map g = x.map f := by
  cases h with
  | none => rfl
  | some h => exact congrArg some (hfg h)

end Lists

/-! ## The ways to go on from a tree -/

namespace Lowered

variable {t u : Tree}

theorem parts (h : Lowered k t u) (r : Role) : List.Forall₂ (Lowered k) (t.parts r) (u.parts r) :=
  filter_lowered h.forall₂_children fun h => by rw [h.role?_eq]

theorem part? (h : Lowered k t u) (r : Role) : Option.Rel (Lowered k) (t.part? r) (u.part? r) :=
  head?_lowered (h.parts r)

theorem namedChildren (h : Lowered k t u) :
    List.Forall₂ (Lowered k) t.namedChildren u.namedChildren :=
  filter_lowered h.forall₂_children isNamed_eq

theorem content? (h : Lowered k t u) : Option.Rel (Lowered k) t.content? u.content? :=
  find?_lowered h.namedChildren fun h => by rw [h.isComment_eq]

theorem partText_eq (h : Lowered k t u) (r : Role) : u.partText r = t.partText r := by
  rw [partText, partText, map_eq_of_lowered (h.part? r) text_eq]

end Lowered

mutual

/-- Where a tree stands for members, so does the tree further down. -/
theorem memberNodes_lowered : ∀ {t u : Tree}, Lowered k t u →
    List.Forall₂ (Lowered k) t.memberNodes u.memberNodes
  | .leaf role x, _, h => by
      have hcomment := h.isComment_eq
      cases h with
      | @leaf _ _ y h =>
          rw [memberNodes, memberNodes, h.isNamed, hcomment]
          split
          · exact .cons (.leaf h) .nil
          · exact .nil
  | .node role kind cs, _, h => by
      have hcomment := h.isComment_eq
      cases h with
      | node htext hline hchildren =>
          rw [memberNodes, memberNodes, hcomment]
          split
          · exact memberNodesIn_lowered hchildren
          · split
            · exact .nil
            · exact .cons (.node htext hline hchildren) .nil

theorem memberNodesIn_lowered : ∀ {ts us : List Tree}, List.Forall₂ (Lowered k) ts us →
    List.Forall₂ (Lowered k) (memberNodesIn ts) (memberNodesIn us)
  | [], _, h => by
      cases h
      exact .nil
  | t :: ts, _, h => by
      cases h with
      | cons h hrest => exact List.rel_append (memberNodes_lowered h) (memberNodesIn_lowered hrest)

end

theorem Lowered.declaredMembers {t u : Tree} (h : Lowered k t u) :
    List.Forall₂ (Lowered k) t.declaredMembers u.declaredMembers := by
  have hbody := h.part? .body
  rw [Tree.declaredMembers, Tree.declaredMembers]
  generalize t.part? .body = x, u.part? .body = y at hbody
  cases hbody with
  | none => exact .nil
  | some h => exact memberNodesIn_lowered h.forall₂_children

end Tree

/-! ## What is read off trees -/

section Reading

variable {t u : Tree}

theorem TypeRef.ofTree_lowered (h : t.Lowered k u) {x y : Option Tree} (hxy : Option.Rel (Tree.Lowered k) x y) :
    TypeRef.ofTree u y = TypeRef.ofTree t x := by
  cases hxy with
  | none => rw [ofTree, ofTree, h.kind_eq, h.text_eq]
  | some hd => rw [ofTree, ofTree, h.text_eq, hd.text_eq]

theorem TypeRef.ofDeclaration_lowered (h : t.Lowered k u) {x y : Option Tree}
    (hxy : Option.Rel (Tree.Lowered k) x y) : ofDeclaration u y = ofDeclaration t x := by
  have htype := h.part? .type
  rw [ofDeclaration, ofDeclaration]
  generalize t.part? .type = type, u.part? .type = type' at htype
  cases htype with
  | none => rfl
  | some h => exact ofTree_lowered h hxy

theorem Parameter.ofSpread?_lowered (h : t.Lowered k u) : ofSpread? u = ofSpread? t := by
  have hdeclarator := Tree.find?_lowered (p := fun c => c.kind == "variable_declarator") h.namedChildren
    fun h => by rw [h.kind_eq]
  have htype := Tree.find?_lowered
    (p := fun c => !(["modifiers", "variable_declarator"].contains c.kind)) h.namedChildren
    fun h => by rw [h.kind_eq]
  refine Tree.bind_eq_of_lowered hdeclarator fun hdeclarator => ?_
  refine Tree.bind_eq_of_lowered htype fun htype => ?_
  refine Tree.bind_eq_of_lowered (hdeclarator.part? .name) fun hname => ?_
  rw [hname.text_eq, htype.text_eq]

theorem Parameter.ofTree?_lowered (h : t.Lowered k u) : ofTree? u = ofTree? t := by
  unfold ofTree?
  rw [h.kind_eq]
  split
  · refine Tree.bind_eq_of_lowered (h.part? .name) fun hname => ?_
    refine Tree.bind_eq_of_lowered (h.part? .type) fun htype => ?_
    rw [hname.text_eq, TypeRef.ofTree_lowered htype (h.part? .dimensions)]
  · exact ofSpread?_lowered h
  · rfl

theorem Parameter.listOfTree_lowered (h : t.Lowered k u) : listOfTree u = listOfTree t :=
  Tree.filterMap_eq_of_lowered h.namedChildren ofTree?_lowered

theorem Parameter.listOfDeclaration_lowered (h : t.Lowered k u) :
    listOfDeclaration u = listOfDeclaration t := by
  rw [listOfDeclaration, listOfDeclaration,
    Tree.map_eq_of_lowered (h.part? .parameters) listOfTree_lowered]

theorem Modifier.listOfTree_lowered (h : t.Lowered k u) : listOfTree u = listOfTree t := by
  have hmodifiers := Tree.find?_lowered (p := fun c => c.kind == "modifiers") h.forall₂_children
    fun h => by rw [h.kind_eq]
  rw [listOfTree, listOfTree]
  generalize t.children.find? _ = x, u.children.find? _ = y at hmodifiers
  cases hmodifiers with
  | none => rfl
  | some h => exact Tree.filterMap_eq_of_lowered h.forall₂_children fun h => by rw [h.kind_eq]

/-! ### Bodies -/

theorem Expression.ofFieldAccess_lowered (h : t.Lowered k u) : ofFieldAccess u = ofFieldAccess t := by
  have hobject := h.part? .object
  have hfield := h.part? .field
  rw [ofFieldAccess, ofFieldAccess, h.kind_eq]
  generalize t.part? .object = o, u.part? .object = o' at hobject
  generalize t.part? .field = f, u.part? .field = f' at hfield
  cases hobject with
  | none => rfl
  | some hobject =>
      cases hfield with
      | none => rfl
      | some hfield =>
          dsimp only
          rw [hobject.kind_eq, hfield.kind_eq, hfield.text_eq]

theorem Expression.ofBare_lowered (h : t.Lowered k u) : ofBare u = ofBare t := by
  rw [ofBare, ofBare, h.kind_eq, h.text_eq, ofFieldAccess_lowered h]

theorem Expression.ofTree_lowered (h : t.Lowered k u) : ofTree u = ofTree t := by
  induction t using Tree.children_induction generalizing u with
  | step t ih =>
      rw [ofTree_eq, ofTree_eq t, h.kind_eq, ofBare_lowered h]
      have hcontent := h.content?
      cases hinner : t.content? with
      | none =>
          rw [hinner] at hcontent
          generalize u.content? = y at hcontent
          cases hcontent
          rfl
      | some inner =>
          rw [hinner] at hcontent
          generalize u.content? = y at hcontent
          cases hcontent with
          | some h => rw [Option.map_some, Option.map_some, ih inner (Tree.mem_of_content? hinner) h]

theorem Statement.ofExpression_lowered (h : t.Lowered k u) : ofExpression u = ofExpression t := by
  have hleft := h.part? .left
  have hright := h.part? .right
  rw [ofExpression, ofExpression, h.kind_eq, h.partText_eq, Expression.ofTree_lowered h]
  generalize t.part? .left = l, u.part? .left = l' at hleft
  generalize t.part? .right = r, u.part? .right = r' at hright
  cases hleft with
  | none => rfl
  | some hleft =>
      cases hright with
      | none => rfl
      | some hright =>
          dsimp only
          rw [Expression.ofTree_lowered hleft, Expression.ofTree_lowered hright]

theorem Statement.ofTree_lowered (h : t.Lowered k u) : ofTree u = ofTree t := by
  have hcontent := h.content?
  unfold ofTree
  rw [h.kind_eq, Tree.map_eq_of_lowered hcontent Expression.ofTree_lowered]
  generalize t.content? = x, u.content? = y at hcontent
  cases hcontent with
  | none => rfl
  | some hcontent => simp only [ofExpression_lowered hcontent]

theorem Statement.ofChild?_lowered (h : t.Lowered k u) : ofChild? u = ofChild? t := by
  rw [ofChild?, ofChild?, h.isComment_eq, h.isMissing_eq, h.kind_eq, h.isNamed_eq, ofTree_lowered h]

theorem Statement.listOfBlock_lowered (h : t.Lowered k u) : listOfBlock u = listOfBlock t :=
  Tree.filterMap_eq_of_lowered h.forall₂_children ofChild?_lowered

end Reading

/-! ## Models -/

/-- The field, `k` lines further down. -/
def Field.lowered (k : Nat) (f : Field) : Field := { f with line := f.line + k }

def Callable.lowered (k : Nat) (c : Callable) : Callable := { c with line := c.line + k }

mutual

/-- The type with all that is declared in it, `k` lines further down. -/
def TypeDecl.lowered (k : Nat) : TypeDecl → TypeDecl
  | ⟨name, kind, line, members⟩ => ⟨name, kind, line + k, Member.loweredAll k members⟩

def Member.lowered (k : Nat) : Member → Member
  | .field f => .field (f.lowered k)
  | .method c => .method (c.lowered k)
  | .constructor c => .constructor (c.lowered k)
  | .type t => .type (t.lowered k)
  | .other kind => .other kind

def Member.loweredAll (k : Nat) : List Member → List Member
  | [] => []
  | m :: ms => m.lowered k :: Member.loweredAll k ms

end

theorem Member.loweredAll_eq (ms : List Member) : loweredAll k ms = ms.map (lowered k) := by
  induction ms with
  | nil => rfl
  | cons m ms ih => rw [loweredAll, ih, List.map_cons]

theorem TypeDecl.lowered_eq (d : TypeDecl) :
    d.lowered k = ⟨d.name, d.kind, d.line + k, d.members.map (Member.lowered k)⟩ := by
  cases d
  rw [lowered, Member.loweredAll_eq]

section Models

variable {t u : Tree}

theorem Field.listOfTree_lowered (h : t.Lowered k u) (implied : List Modifier) :
    listOfTree u implied = (listOfTree t implied).map (lowered k) := by
  rw [listOfTree, listOfTree, Modifier.listOfTree_lowered h]
  refine Tree.filterMap_lowered (h.parts .declarator) fun {d e} hd => ?_
  have hname := hd.part? .name
  rw [TypeRef.ofDeclaration_lowered h (hd.part? .dimensions), hd.line_eq]
  generalize d.part? .name = x, e.part? .name = y at hname
  cases hname with
  | none => rfl
  | some hname => rw [Option.map_some, Option.map_some, Option.map_some, hname.text_eq]; rfl

theorem Field.listOfComponents_lowered (h : t.Lowered k u) :
    listOfComponents u = (listOfComponents t).map (lowered k) := by
  have hlist := h.part? .parameters
  rw [listOfComponents, listOfComponents]
  generalize t.part? .parameters = x, u.part? .parameters = y at hlist
  cases hlist with
  | none => rfl
  | some hlist =>
      dsimp only
      rw [Parameter.listOfTree_lowered hlist, hlist.line_eq, List.map_map]
      rfl

theorem Callable.ofTree_lowered (h : t.Lowered k u) (result : TypeRef) :
    ofTree u result = (ofTree t result).lowered k := by
  rw [ofTree, ofTree, h.partText_eq, Parameter.listOfDeclaration_lowered h, Modifier.listOfTree_lowered h,
    Tree.map_eq_of_lowered (h.part? .body) Statement.listOfBlock_lowered, h.line_eq]
  rfl

theorem Callable.ofMethod_lowered (h : t.Lowered k u) : ofMethod u = (ofMethod t).lowered k := by
  rw [ofMethod, ofMethod, TypeRef.ofDeclaration_lowered h (h.part? .dimensions), ofTree_lowered h]

theorem Member.listOfPart_lowered (h : t.Lowered k u) :
    listOfPart u = (listOfPart t).map (lowered k) := by
  have hfields : ∀ implied, (Field.listOfTree u implied).map Member.field =
      ((Field.listOfTree t implied).map Member.field).map (lowered k) := fun implied => by
    rw [Field.listOfTree_lowered h, List.map_map, List.map_map]
    rfl
  unfold listOfPart
  rw [h.kind_eq]
  split
  · exact hfields []
  · exact hfields constantModifiers
  · rw [Callable.ofMethod_lowered h]; rfl
  · rw [Callable.ofTree_lowered h]; rfl
  · rw [Callable.ofTree_lowered h]; rfl
  · rfl
  · rfl
  · rfl

theorem TypeDecl.ofParts?_lowered (h : t.Lowered k u) (members : List Member) :
    ofParts? u (members.map (Member.lowered k)) = (ofParts? t members).map (lowered k) := by
  have hname := h.part? .name
  rw [ofParts?, ofParts?, h.kind_eq, h.line_eq, Field.listOfComponents_lowered h]
  generalize t.part? .name = x, u.part? .name = y at hname
  cases TypeKind.ofDeclaration? t.kind with
  | none => rfl
  | some kind =>
      cases hname with
      | none => rfl
      | @some name name' hname =>
          have hdecl : ∀ fields : List Field, (⟨name'.text, kind, t.line + k,
              (fields.map (Field.lowered k)).map Member.field ++ members.map (Member.lowered k)⟩ : TypeDecl) =
              lowered k ⟨name.text, kind, t.line, fields.map Member.field ++ members⟩ := fun fields => by
            rw [lowered_eq, hname.text_eq, List.map_append, List.map_map, List.map_map]
            rfl
          exact congrArg some (hdecl _)

/-- **Types.** The model of a type that is moved down is its model, moved down. -/
theorem TypeDecl.ofTree?_lowered (h : t.Lowered k u) : ofTree? u = (ofTree? t).map (lowered k) := by
  induction t using Tree.declared_induction generalizing u with
  | step t ih =>
      -- a member that declares a type is modelled by it, and any other by its own parts
      have hmembers : Member.listOfBody u.children = (Member.listOfBody t.children).map (Member.lowered k) := by
        rw [Member.listOfBody_eq, Member.listOfBody_eq]
        refine Tree.flatMap_lowered h.declaredMembers fun n hn m hm => ?_
        rw [Member.ofNode, Member.ofNode, ih n hn hm, Member.listOfPart_lowered hm]
        cases ofTree? n <;> rfl
      rw [ofTree?, ofTree?, hmembers, ofParts?_lowered h]

end Models

/-! ## Verdicts -/

def Verdict.lowered (k : Nat) (v : Verdict) : Verdict := { v with line := v.line + k }

namespace TypeDecl

theorem name_lowered (d : TypeDecl) : (d.lowered k).name = d.name := by
  rw [lowered_eq]

theorem fields_lowered (d : TypeDecl) : (d.lowered k).fields = d.fields.map (Field.lowered k) := by
  rw [lowered_eq, fields, fields, List.filterMap_map, List.map_filterMap]
  refine List.filterMap_congr fun m _ => ?_
  cases m <;> rfl

theorem callables_lowered (d : TypeDecl) : (d.lowered k).callables = d.callables.map (Member.lowered k) := by
  rw [lowered_eq, callables, callables, List.filter_map]
  refine congrArg _ (List.filter_congr fun m _ => ?_)
  cases m <;> rfl

theorem nested_lowered (d : TypeDecl) : (d.lowered k).nested = d.nested.map (lowered k) := by
  rw [lowered_eq, nested, nested, List.filterMap_map, List.map_filterMap]
  refine List.filterMap_congr fun m _ => ?_
  cases m <;> rfl

theorem hasPrivateInstance_lowered {d : TypeDecl} {n : String} :
    (d.lowered k).HasPrivateInstance n ↔ d.HasPrivateInstance n := by
  have hfind : ((d.lowered k).fields.find? fun f => f.name == n) =
      (d.fields.find? fun f => f.name == n).map (Field.lowered k) := by
    rw [fields_lowered, List.find?_map]
    rfl
  simp only [HasPrivateInstance, firstField_iff, hfind, Option.map_eq_some_iff]
  constructor
  · rintro ⟨_, ⟨f, hf, rfl⟩, hmodifiers⟩
    exact ⟨f, hf, hmodifiers⟩
  · rintro ⟨f, hf, hmodifiers⟩
    exact ⟨_, ⟨f, hf, rfl⟩, hmodifiers⟩

end TypeDecl

theorem classify_lowered (d : TypeDecl) (m : Member) :
    classify (d.lowered k) (m.lowered k) = classify d m := by
  rw [classify_congr (u := d) fun p => TypeDecl.hasPrivateInstance_lowered]
  cases m with
  | method c => exact classify_method_outline d rfl
  | field _ => rfl
  | constructor _ => rfl
  | type _ => rfl
  | other _ => rfl

theorem TypeDecl.ownVerdicts_lowered (d : TypeDecl) (path : String) :
    (d.lowered k).ownVerdicts path = (d.ownVerdicts path).map (Verdict.lowered k) := by
  have hown : ∀ e : TypeDecl, e.ownVerdicts path = e.callables.map fun m =>
      ⟨path, m.name?.getD "", m.line, m.isConstructor, classify e m⟩ := fun _ => rfl
  rw [hown, hown, callables_lowered, List.map_map, List.map_map]
  refine List.map_congr_left fun m hm => ?_
  obtain ⟨-, hcallable⟩ := List.mem_filter.mp hm
  simp only [Function.comp_apply, classify_lowered]
  cases m with
  | method c => rfl
  | constructor c => rfl
  | field _ => cases hcallable
  | type _ => cases hcallable
  | other _ => cases hcallable

theorem TypeDecl.verdictsUnder_lowered (d : TypeDecl) (path : String) :
    (d.lowered k).verdictsUnder path = (d.verdictsUnder path).map (Verdict.lowered k) := by
  induction d using TypeDecl.nested_induction generalizing path with
  | step d ih =>
      rw [verdictsUnder_eq, verdictsUnder_eq path d, ownVerdicts_lowered, nested_lowered, List.map_append,
        List.flatMap_map, List.map_flatMap]
      refine congrArg _ (List.flatMap_congr fun n hn => ?_)
      rw [name_lowered, ih n hn]

/-- **Verdicts.** Those on types that are moved down are moved down, in the same order. -/
theorem verdicts_lowered (types : List TypeDecl) :
    verdicts (types.map (TypeDecl.lowered k)) = (verdicts types).map (Verdict.lowered k) := by
  rw [verdicts, verdicts, List.flatMap_map, List.map_flatMap]
  refine List.flatMap_congr fun d _ => ?_
  rw [TypeDecl.name_lowered, TypeDecl.verdictsUnder_lowered]

theorem Scan.findVerdict_lowered (vs : List Verdict) (q : String) :
    findVerdict (vs.map (Verdict.lowered k)) q = (findVerdict vs q).map (Verdict.lowered k) := by
  have hfind : findVerdict? (vs.map (Verdict.lowered k)) q = (findVerdict? vs q).map (Verdict.lowered k) := by
    rw [findVerdict?, findVerdict?, List.find?_map]
    rfl
  rw [findVerdict, findVerdict, hfind]
  cases findVerdict? vs q <;> rfl

/-! ## Sources -/

def SourceModel.lowered (k : Nat) (m : SourceModel) : SourceModel :=
  { m with types := m.types.map (TypeDecl.lowered k) }

/-- The report on a source, with its verdicts `k` lines further down. -/
def FileReport.lowered (k : Nat) (r : FileReport) : FileReport :=
  { r with methods := r.methods.map (Verdict.lowered k) }

theorem FileReport.ofModel_lowered (path : String) (m : SourceModel) :
    ofModel path (m.lowered k) = (ofModel path m).lowered k := by
  rw [ofModel, ofModel, SourceModel.lowered, verdicts_lowered]
  rfl

/-- Below the roots of two sources that are moved the trees are not empty. -/
theorem forall₂_children_lowered {source : String} {u : Tree} {first left : Bool}
    (h : Tree.Moves k first [syntaxTree source] [u] left) :
    List.Forall₂ (Tree.Lowered k) (syntaxTree source).children u.children := by
  have hfilled := syntaxTree_filled source
  generalize syntaxTree source = t at h hfilled ⊢
  cases h with
  | leaf _ _ => exact .nil
  | node hchildren _ => exact hchildren.forall₂_lowered hfilled

theorem SourceModel.ofSource_lowered (k : Nat) {source : String} (hmark : ¬ orderMark.toList <+: source.toList)
    (hwhole : (syntaxTree source).isBroken = false) :
    ofSource (movedDown k source) = (ofSource source).lowered k := by
  obtain ⟨left, hmoves⟩ := syntaxTree_moves k hmark hwhole
  have hnamed := Tree.filter_lowered (forall₂_children_lowered hmoves) Tree.Lowered.isNamed_eq
  have htypes : TypeDecl.listOfProgram (syntaxTree (movedDown k source)) =
      (TypeDecl.listOfProgram (syntaxTree source)).map (TypeDecl.lowered k) :=
    Tree.filterMap_lowered hnamed TypeDecl.ofTree?_lowered
  have hbroken : (syntaxTree (movedDown k source)).isBroken = (syntaxTree source).isBroken := by
    simpa only [Tree.anyBroken, Bool.or_false] using hmoves.isBroken_eq
  rw [ofSource, ofSource, ofTree, ofTree, lowered, htypes, hbroken]

/-- **Moving a source down changes nothing but lines.** With `k` line ends in front of an unbroken source all
    types, fields, methods and constructors of its model are `k` lines further down, and so are the verdicts of
    its report. Nothing else is different, and a look-up by qualified name finds the same verdict or none. -/
theorem source_moved (k : Nat) (source : String) (file : FilePath)
    (hmark : ¬ orderMark.toList <+: source.toList) (hwhole : (syntaxTree source).isBroken = false) :
    Scan.modelOf (movedDown k source) file =
        ⟨(Scan.modelOf source file).value.lowered k, (Scan.modelOf source file).entries⟩ ∧
      Scan.scanSource (movedDown k source) file =
        ⟨(Scan.scanSource source file).value.lowered k, (Scan.scanSource source file).entries⟩ ∧
      ∀ q, Scan.findVerdict (Scan.scanSource (movedDown k source) file).value.methods q =
        (Scan.findVerdict (Scan.scanSource source file).value.methods q).map (Verdict.lowered k) := by
  have hmodel : Scan.modelOf (movedDown k source) file =
      ⟨(Scan.modelOf source file).value.lowered k, (Scan.modelOf source file).entries⟩ := by
    rw [Scan.modelOf, SourceModel.ofSource_lowered k hmark hwhole]
    rfl
  have hreport : Scan.scanSource (movedDown k source) file =
      ⟨(Scan.scanSource source file).value.lowered k, (Scan.scanSource source file).entries⟩ := by
    rw [Scan.scanSource, hmodel]
    show (⟨FileReport.ofModel _ _, _⟩ : Logged FileReport) = _
    rw [FileReport.ofModel_lowered]
    rfl
  refine ⟨hmodel, hreport, fun q => ?_⟩
  rw [hreport]
  exact Scan.findVerdict_lowered _ q

/-- A comment, a class with an accessor, and an interface in it with a constant. -/
def nestedSource : String :=
  "// c\nclass A \x7b\n  private int n = 1;\n  int getN() \x7b return n; \x7d\n" ++
    "  interface I \x7b String S = \"s\";\n    void f(); \x7d\n\x7d"

theorem source_moved_nested :
    ¬ orderMark.toList <+: nestedSource.toList ∧ (syntaxTree nestedSource).isBroken = false ∧
    Scan.scanSource (movedDown 2 nestedSource) ⟨"A.java"⟩ =
      ⟨(Scan.scanSource nestedSource ⟨"A.java"⟩).value.lowered 2,
        (Scan.scanSource nestedSource ⟨"A.java"⟩).entries⟩ ∧
    (Scan.scanSource nestedSource ⟨"A.java"⟩).value.methods =
      [⟨"A", "getN", 4, false, some (.getter "n")⟩, ⟨"A.I", "f", 6, false, none⟩] ∧
    (Scan.modelOf (movedDown 2 nestedSource) ⟨"A.java"⟩).value.types.map (fun d => d.members.map Member.line) =
      [[5, 6, 7]] := by
  have hmark : ¬ orderMark.toList <+: nestedSource.toList := by decide +kernel
  have hwhole : (syntaxTree nestedSource).isBroken = false := by decide +kernel
  obtain ⟨-, hreport, -⟩ := source_moved 2 nestedSource ⟨"A.java"⟩ hmark hwhole
  exact ⟨hmark, hwhole, hreport, by decide +kernel, by decide +kernel⟩

end AccessorScan
