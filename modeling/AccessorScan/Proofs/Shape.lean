import AccessorScan.Model.OfTree

/-!
# `Proofs.Shape` — what the grammar says of the nodes of a tree

A tree made by the grammar has more order than `Tree` demands: a parameter has a name and a type, an
assignment has both sides, a primitive type is spelled by its keyword. The model is faithful to trees
that have this much order, whatever else they hold.

## Contents
- `Tree.everywhere`: a property of all nodes and leaves of a tree.
- `Tree.fitsKind`, `Tree.FitsGrammar`: what is asked of a node of each kind, and of a tree.
- `Tree.fitsDeclaration`, `Tree.FitsDeclarations`: the parts that a declaration has.
- `Tree.fitsWords`, `Tree.FitsWords`: what is written in one word.
- `Tree.Within`, `Tree.children_induction`: the trees that stand in a tree.
- `FitsGrammar.within`, `FitsGrammar.formal`, `FitsGrammar.spread`, …: what follows of a tree that
  fits.
-/

namespace AccessorScan

namespace Tree

mutual

/-- The property holds of a tree and of all trees in it. -/
def everywhere (p : Tree → Bool) : Tree → Bool
  | leaf role token => p (leaf role token)
  | node role kind cs => p (node role kind cs) && everywhereIn p cs

def everywhereIn (p : Tree → Bool) : List Tree → Bool
  | [] => true
  | t :: ts => t.everywhere p && everywhereIn p ts

end

/-! ## Single nodes -/

/-- Where a parameter with any number of arguments has its name. -/
def spreadDeclarator? (t : Tree) : Option Tree :=
  t.namedChildren.find? fun c => c.kind == "variable_declarator"

/-- Where it has its type. -/
def spreadType? (t : Tree) : Option Tree :=
  t.namedChildren.find? fun c => !(["modifiers", "variable_declarator"].contains c.kind)

/-- The words of the integral types. -/
def integralWords : List String := ["byte", "short", "int", "long", "char"]

/-- What the grammar says of a node of its kind, as far as the model relies on it. -/
def fitsKind (t : Tree) : Bool :=
  match t.kind with
  | "formal_parameter" => (t.part? .name).isSome && (t.part? .type).isSome
  | "spread_parameter" => t.spreadDeclarator?.isSome && t.spreadType?.isSome
  | "variable_declarator" => (t.part? .name).isSome
  | "void_type" => t.text == "void"
  | "boolean_type" => t.text == "boolean"
  | "integral_type" => integralWords.contains t.text
  | "floating_point_type" => ["float", "double"].contains t.text
  | "assignment_expression" => (t.part? .left).isSome && (t.part? .right).isSome
  | _ => true

/-- A tree all of whose nodes are as the grammar makes them. -/
def FitsGrammar (t : Tree) : Prop := t.everywhere fitsKind = true

instance (t : Tree) : Decidable t.FitsGrammar := inferInstanceAs (Decidable (_ = true))

/-- The declarations of types without parameters. -/
def bareKinds : List String := ["class_declaration", "interface_declaration", "enum_declaration"]

/-- What the grammar says of the parts of a declaration: a type has a name, only a record has
    parameters, and what declares a variable is a declarator. -/
def fitsDeclaration (t : Tree) : Bool :=
  (t.parts .declarator).all (fun d => d.kind == "variable_declarator") &&
    (!(TypeKind.ofDeclaration? t.kind).isSome || (t.part? .name).isSome) &&
    (!bareKinds.contains t.kind || (t.parts .parameters).isEmpty)

/-- A tree whose declarations have the parts that the grammar gives them. -/
def FitsDeclarations (t : Tree) : Prop := t.everywhere fitsDeclaration = true

instance (t : Tree) : Decidable t.FitsDeclarations := inferInstanceAs (Decidable (_ = true))

theorem fitsDeclaration_iff {t : Tree} :
    t.fitsDeclaration = true ↔
      (∀ d ∈ t.parts .declarator, d.kind = "variable_declarator") ∧
        ((TypeKind.ofDeclaration? t.kind).isSome = true → (t.part? .name).isSome = true) ∧
          (t.kind ∈ bareKinds → t.parts .parameters = []) := by
  simp only [fitsDeclaration, Bool.and_eq_true, List.all_eq_true, beq_iff_eq, Bool.or_eq_true,
    Bool.not_eq_true', List.isEmpty_iff, and_assoc]
  rw [← Bool.not_eq_true, ← Bool.not_eq_true, List.contains_iff_mem, ← Decidable.imp_iff_not_or,
    ← Decidable.imp_iff_not_or]

def isLeaf : Tree → Bool
  | leaf _ _ => true
  | node _ _ _ => false

/-- The keyword of a type of numbers. -/
def isNumberWord (t : Tree) : Bool :=
  t.isLeaf && !t.isComment && (integralWords ++ ["float", "double"]).contains t.text

/-- What declares something under a name of its own. -/
def namingKinds : List String :=
  ["class_declaration", "interface_declaration", "enum_declaration", "record_declaration",
    "method_declaration", "constructor_declaration", "compact_constructor_declaration",
    "formal_parameter", "variable_declarator"]

/-- What the grammar says of the words of a node: names, operators and the keywords of types are not
    made of several parts. -/
def fitsWords (t : Tree) : Bool :=
  match t.kind with
  | "identifier" | "void_type" | "boolean_type" => t.isLeaf
  | "integral_type" | "floating_point_type" => t.isLeaf || t.children.any isNumberWord
  | "assignment_expression" => (t.part? .operator).all isLeaf
  | "spread_parameter" => t.namedChildren.any fun c =>
      !c.isComment && !(["modifiers", "variable_declarator"].contains c.kind)
  | "field_declaration" | "constant_declaration" =>
      (t.parts .declarator).all fun d => d.kind == "variable_declarator"
  | kind => !namingKinds.contains kind || (t.part? .name).all isLeaf

/-- A tree whose words are written as the grammar makes them. -/
def FitsWords (t : Tree) : Prop := t.everywhere fitsWords = true

instance (t : Tree) : Decidable t.FitsWords := inferInstanceAs (Decidable (_ = true))

/-! ## Subtrees -/

/-- The tree `s` is the tree `t` or stands somewhere in it. -/
inductive Within (s : Tree) : Tree → Prop where
  | self : Within s s
  | child {c t : Tree} (hc : c ∈ t.children) (h : Within s c) : Within s t

theorem everywhereIn_iff {p : Tree → Bool} {ts : List Tree} :
    everywhereIn p ts = true ↔ ∀ t ∈ ts, t.everywhere p = true := by
  induction ts with
  | nil => simp [everywhereIn]
  | cons t ts ih => rw [everywhereIn, Bool.and_eq_true, ih, List.forall_mem_cons]

theorem everywhere_iff {p : Tree → Bool} {t : Tree} :
    t.everywhere p = true ↔ p t = true ∧ ∀ c ∈ t.children, c.everywhere p = true := by
  cases t with
  | leaf role token => simp [everywhere, children]
  | node role kind cs => rw [everywhere, Bool.and_eq_true, everywhereIn_iff, children]

theorem sizeOf_lt_of_mem_children {t c : Tree} (h : c ∈ t.children) : sizeOf c < sizeOf t := by
  cases t with
  | leaf role token => cases h
  | node role kind cs =>
      have hlt : sizeOf c < sizeOf cs := List.sizeOf_lt_of_mem h
      rw [node.sizeOf_spec]
      omega

/-- Induction on trees: a property holds of all trees if it passes from the children of a tree to the
    tree. -/
theorem children_induction {P : Tree → Prop}
    (step : ∀ t : Tree, (∀ c ∈ t.children, P c) → P t) (t : Tree) : P t :=
  step t fun c _ => children_induction step c
termination_by sizeOf t
decreasing_by exact sizeOf_lt_of_mem_children ‹_›

theorem everywhere_mono {p q : Tree → Bool} (hpq : ∀ t, p t = true → q t = true) {t : Tree}
    (h : t.everywhere p = true) : t.everywhere q = true := by
  induction t using children_induction with
  | step t ih =>
      obtain ⟨hp, hchildren⟩ := everywhere_iff.mp h
      exact everywhere_iff.mpr ⟨hpq t hp, fun c hc => ih c hc (hchildren c hc)⟩

theorem Within.everywhere {p : Tree → Bool} {s t : Tree} (hs : Within s t)
    (h : t.everywhere p = true) : s.everywhere p = true := by
  induction hs with
  | self => exact h
  | child hc _ ih => exact ih ((everywhere_iff.mp h).2 _ hc)

theorem Within.trans {r s t : Tree} (hr : Within r s) (hs : Within s t) : Within r t := by
  induction hs with
  | self => exact hr
  | child hc _ ih => exact .child hc ih

theorem Within.sizeOf_le {s t : Tree} (h : Within s t) : sizeOf s ≤ sizeOf t := by
  induction h with
  | self => exact Nat.le_refl _
  | child hc _ ih => exact Nat.le_trans ih (Nat.le_of_lt (sizeOf_lt_of_mem_children hc))

theorem mem_of_part? {t c : Tree} {r : Role} (h : t.part? r = some c) : c ∈ t.children :=
  (List.mem_filter.mp (List.mem_of_head? h)).1

theorem mem_of_mem_namedChildren {t c : Tree} (h : c ∈ t.namedChildren) : c ∈ t.children :=
  (List.mem_filter.mp h).1

theorem mem_of_content? {t c : Tree} (h : t.content? = some c) : c ∈ t.children :=
  mem_of_mem_namedChildren (List.mem_of_find?_eq_some h)

namespace FitsGrammar

variable {t c : Tree}

theorem kind_fits (h : t.FitsGrammar) : t.fitsKind = true := (everywhere_iff.mp h).1

theorem child (h : t.FitsGrammar) (hc : c ∈ t.children) : c.FitsGrammar :=
  (everywhere_iff.mp h).2 c hc

theorem within {s : Tree} (h : t.FitsGrammar) (hs : Within s t) : s.FitsGrammar :=
  hs.everywhere h

theorem part? (h : t.FitsGrammar) {r : Role} (hc : t.part? r = some c) : c.FitsGrammar :=
  h.child (mem_of_part? hc)

theorem content? (h : t.FitsGrammar) (hc : t.content? = some c) : c.FitsGrammar :=
  h.child (mem_of_content? hc)

theorem formal (h : t.FitsGrammar) (hkind : t.kind = "formal_parameter") :
    ∃ name type, t.part? .name = some name ∧ t.part? .type = some type := by
  have hfits := h.kind_fits
  simp only [fitsKind, hkind, Bool.and_eq_true, Option.isSome_iff_exists] at hfits
  obtain ⟨⟨name, hname⟩, type, htype⟩ := hfits
  exact ⟨name, type, hname, htype⟩

theorem declarator (h : t.FitsGrammar) (hkind : t.kind = "variable_declarator") :
    ∃ name, t.part? .name = some name := by
  have hfits := h.kind_fits
  simp only [fitsKind, hkind, Option.isSome_iff_exists] at hfits
  exact hfits

theorem spread (h : t.FitsGrammar) (hkind : t.kind = "spread_parameter") :
    ∃ d name type, t.spreadDeclarator? = some d ∧ d.part? .name = some name ∧
      t.spreadType? = some type := by
  have hfits := h.kind_fits
  simp only [fitsKind, hkind, Bool.and_eq_true, Option.isSome_iff_exists] at hfits
  obtain ⟨⟨d, hd⟩, type, htype⟩ := hfits
  have hmem : d ∈ t.children := mem_of_mem_namedChildren (List.mem_of_find?_eq_some hd)
  have hdkind : (d.kind == "variable_declarator") = true :=
    List.find?_some (p := fun c : Tree => c.kind == "variable_declarator") hd
  obtain ⟨name, hname⟩ := (h.child hmem).declarator (beq_iff_eq.mp hdkind)
  exact ⟨d, name, type, hd, hname, htype⟩

theorem right_isSome (h : t.FitsGrammar) (hkind : t.kind = "assignment_expression") :
    ∃ right, t.part? .right = some right := by
  have hfits := h.kind_fits
  simp only [fitsKind, hkind, Bool.and_eq_true] at hfits
  exact Option.isSome_iff_exists.mp hfits.2

end FitsGrammar

end Tree

end AccessorScan
