import AccessorScan.Proofs.Declarations
import Mathlib.Logic.Relation

/-!
# `Proofs.Uncommented` — trees without their comments

Two trees differ in comments only if nothing is left to tell them apart once their comments are taken
out. What the model looks up in a tree, child by child, it finds in the tree without comments as well:
each way to go through the children of a node is followed here once.

## Contents
- `Tree.AddsComment`: one comment more.
- `Tree.uncommented`: a tree without its comments; `Tree.eqvGen_addsComment_iff`.
- `Tree.filter_children_uncommented`, `Tree.filterMap_children_uncommented`: the ways through the
  children, and with them `parts_uncommented`, `content?_uncommented`, `declaredMembers_uncommented`.
- `Tree.fitsWords_uncommented`, `FitsWords.uncommented`: the words stay.
-/

namespace AccessorScan.Tree

/-! ## Comments -/

/-- A comment. The grammar gives it no role in its parent. -/
def isLoose (t : Tree) : Bool := t.isComment && t.role?.isNone

/-- The second tree is the first with one comment more, somewhere among the children of a node. -/
inductive AddsComment : Tree → Tree → Prop where
  | here {role : Option Role} {kind : String} {before after : List Tree} {comment : Tree}
      (h : comment.isLoose = true) :
      AddsComment (node role kind (before ++ after)) (node role kind (before ++ comment :: after))
  | inside {role : Option Role} {kind : String} {before after : List Tree} {t t' : Tree}
      (h : AddsComment t t') :
      AddsComment (node role kind (before ++ t :: after)) (node role kind (before ++ t' :: after))

mutual

/-- The tree without the comments in it. -/
def uncommented : Tree → Tree
  | leaf role token => leaf role token
  | node role kind cs => node role kind (uncommentedAll cs)

def uncommentedAll : List Tree → List Tree
  | [] => []
  | t :: ts => if t.isLoose then uncommentedAll ts else t.uncommented :: uncommentedAll ts

end

/-! ### Single nodes -/

@[simp] theorem kind_uncommented (t : Tree) : t.uncommented.kind = t.kind := by
  cases t <;> rfl

@[simp] theorem role?_uncommented (t : Tree) : t.uncommented.role? = t.role? := by
  cases t <;> rfl

@[simp] theorem isNamed_uncommented (t : Tree) : t.uncommented.isNamed = t.isNamed := by
  cases t <;> rfl

@[simp] theorem isMissing_uncommented (t : Tree) : t.uncommented.isMissing = t.isMissing := by
  cases t <;> rfl

@[simp] theorem isLeaf_uncommented (t : Tree) : t.uncommented.isLeaf = t.isLeaf := by
  cases t <;> rfl

@[simp] theorem isComment_uncommented (t : Tree) : t.uncommented.isComment = t.isComment := by
  rw [isComment, isComment, kind_uncommented]

/-- There is nothing to take out of a leaf. -/
theorem uncommented_of_isLeaf {t : Tree} (h : t.isLeaf = true) : t.uncommented = t := by
  cases t with
  | leaf role token => rw [uncommented]
  | node role kind cs => cases h

theorem uncommentedAll_eq (ts : List Tree) :
    uncommentedAll ts = (ts.filter fun t => !t.isLoose).map uncommented := by
  induction ts with
  | nil => rw [uncommentedAll]; rfl
  | cons t ts ih => cases h : t.isLoose <;> simp [uncommentedAll, h, ih]

theorem children_uncommented (t : Tree) :
    t.uncommented.children = (t.children.filter fun c => !c.isLoose).map uncommented := by
  cases t with
  | leaf role token => rw [uncommented]; rfl
  | node role kind cs => rw [uncommented, children, uncommentedAll_eq]; rfl

theorem isComment_of_isLoose {t : Tree} (h : t.isLoose = true) : t.isComment = true :=
  (Bool.and_eq_true_iff.mp h).1

theorem isLoose_of_isComment {t : Tree} (h : t.isComment = false) : t.isLoose = false := by
  rw [isLoose, h]
  rfl

theorem isLoose_of_role {t : Tree} {r : Role} (h : t.role? = some r) : t.isLoose = false := by
  rw [isLoose, h]
  exact Bool.and_false _

/-- No comment is of this kind. -/
theorem kind_ne_of_isComment {t : Tree} {kind : String} (h : t.isComment = true)
    (hline : kind ≠ "line_comment") (hblock : kind ≠ "block_comment") : t.kind ≠ kind := by
  rw [isComment, Bool.or_eq_true, beq_iff_eq, beq_iff_eq] at h
  rcases h with h | h
  · rw [h]
    exact hline.symm
  · rw [h]
    exact hblock.symm

theorem mem_children_uncommented {t c : Tree} (hc : c ∈ t.children) (h : c.isLoose = false) :
    c.uncommented ∈ t.uncommented.children := by
  rw [children_uncommented]
  exact List.mem_map_of_mem (List.mem_filter.mpr ⟨hc, by rw [h]; rfl⟩)

/-- **One comment more.** It is taken out again. -/
theorem AddsComment.uncommented_eq {t t' : Tree} (h : AddsComment t t') :
    t.uncommented = t'.uncommented := by
  induction h with
  | here h => simp [uncommented, uncommentedAll_eq, h]
  | @inside role kind before after t t' h ih =>
      have hkind : t.kind = t'.kind := by cases h <;> rfl
      have hrole : t.role? = t'.role? := by cases h <;> rfl
      have hloose : t.isLoose = t'.isLoose := by
        rw [isLoose, isLoose, isComment, isComment, hkind, hrole]
      cases hl : t'.isLoose with
      | true => simp [uncommented, uncommentedAll_eq, hloose, hl]
      | false => simp [uncommented, uncommentedAll_eq, hloose, hl, ih]

/-- Any number of comments more or less. -/
theorem uncommented_eq_of_eqvGen {t t' : Tree} (h : Relation.EqvGen AddsComment t t') :
    t.uncommented = t'.uncommented := by
  induction h with
  | rel _ _ h => exact h.uncommented_eq
  | refl _ => rfl
  | symm _ _ _ ih => exact ih.symm
  | trans _ _ _ _ _ ih₁ ih₂ => exact ih₁.trans ih₂

/-- What may be changed in a child may be changed in the node around it. -/
theorem eqvGen_inside {role : Option Role} {kind : String} {before after : List Tree} {t t' : Tree}
    (h : Relation.EqvGen AddsComment t t') :
    Relation.EqvGen AddsComment (node role kind (before ++ t :: after))
      (node role kind (before ++ t' :: after)) := by
  induction h with
  | rel _ _ h => exact .rel _ _ (.inside h)
  | refl _ => exact .refl _
  | symm _ _ _ ih => exact .symm _ _ ih
  | trans _ _ _ _ _ ih₁ ih₂ => exact .trans _ _ _ ih₁ ih₂

/-- The comments of a tree can be put back one by one. -/
theorem eqvGen_uncommented (t : Tree) : Relation.EqvGen AddsComment t.uncommented t := by
  induction t using children_induction with
  | step t ih =>
      cases t with
      | leaf role token => exact .refl _
      | node role kind cs =>
          -- from the front of the list, behind the children that are done
          have hall : ∀ (cs before : List Tree),
              (∀ c ∈ cs, Relation.EqvGen AddsComment c.uncommented c) →
              Relation.EqvGen AddsComment (node role kind (before ++ uncommentedAll cs))
                (node role kind (before ++ cs)) := by
            intro cs
            induction cs with
            | nil => exact fun before _ => .refl _
            | cons c cs ihcs =>
                intro before hcs
                have hrest := fun x hx => hcs x (List.mem_cons_of_mem c hx)
                rw [uncommentedAll]
                cases hloose : c.isLoose with
                | true =>
                    rw [if_pos rfl]
                    exact .trans _ _ _ (ihcs before hrest) (.rel _ _ (.here hloose))
                | false =>
                    rw [if_neg Bool.false_ne_true]
                    refine .trans _ _ _ (eqvGen_inside (hcs c List.mem_cons_self)) ?_
                    have hdone := ihcs (before ++ [c]) hrest
                    rw [List.append_assoc, List.append_assoc] at hdone
                    exact hdone
          exact hall cs [] ih

/-- **Comments alone.** Two trees differ in any number of comments exactly if they are the same without
    comments. -/
theorem eqvGen_addsComment_iff {t t' : Tree} :
    Relation.EqvGen AddsComment t t' ↔ t.uncommented = t'.uncommented := by
  constructor
  · exact uncommented_eq_of_eqvGen
  · intro h
    have hback := eqvGen_uncommented t'
    rw [← h] at hback
    exact .trans _ _ _ (.symm _ _ (eqvGen_uncommented t)) hback

/-! ## Ways through the children -/

section Children

variable {α : Type} (t : Tree)

/-- Picking children, but no comments. -/
theorem filter_children_uncommented {p : Tree → Bool} (hp : ∀ c, p c.uncommented = p c)
    (hloose : ∀ c, c.isLoose = true → p c = false) :
    t.uncommented.children.filter p = (t.children.filter p).map uncommented := by
  rw [children_uncommented, List.filter_map, List.filter_filter]
  refine congrArg _ (List.filter_congr fun c _ => ?_)
  rw [Function.comp_apply, hp]
  cases h : c.isLoose with
  | true => rw [hloose c h]; rfl
  | false => rw [Bool.not_false, Bool.and_true]

/-- Making something of children, but of no comments. -/
theorem filterMap_children_uncommented {f g : Tree → Option α}
    (hfg : ∀ c ∈ t.children, c.isLoose = false → f c.uncommented = g c)
    (hloose : ∀ c, c.isLoose = true → g c = none) :
    t.uncommented.children.filterMap f = t.children.filterMap g := by
  rw [children_uncommented, List.filterMap_map, List.filterMap_filter]
  refine List.filterMap_congr fun c hc => ?_
  cases h : c.isLoose with
  | true => rw [hloose c h]; rfl
  | false => exact hfg c hc h

theorem any_children_uncommented {p : Tree → Bool} (hp : ∀ c, p c.uncommented = p c)
    (hloose : ∀ c, c.isLoose = true → p c = false) :
    t.uncommented.children.any p = t.children.any p := by
  have hany : ∀ cs : List Tree, cs.any p = !(cs.filter p).isEmpty := by
    intro cs
    rw [Bool.eq_iff_iff]
    simp
  rw [hany, hany, filter_children_uncommented t hp hloose, List.isEmpty_map]

theorem find?_children_uncommented {p : Tree → Bool} (hp : ∀ c, p c.uncommented = p c)
    (hloose : ∀ c, c.isLoose = true → p c = false) :
    t.uncommented.children.find? p = (t.children.find? p).map uncommented := by
  rw [← List.head?_filter, ← List.head?_filter, filter_children_uncommented t hp hloose,
    List.head?_map]

theorem find?_namedChildren_uncommented {p : Tree → Bool} (hp : ∀ c, p c.uncommented = p c)
    (hcomment : ∀ c, c.isComment = true → p c = false) :
    t.uncommented.namedChildren.find? p = (t.namedChildren.find? p).map uncommented := by
  rw [namedChildren, namedChildren, List.find?_filter, List.find?_filter]
  refine find?_children_uncommented t (fun c => ?_) fun c hc => ?_
  · rw [isNamed_uncommented, hp]
  · simp [hcomment c (isComment_of_isLoose hc)]

/-! ### Parts -/

theorem parts_uncommented (r : Role) : t.uncommented.parts r = (t.parts r).map uncommented := by
  refine filter_children_uncommented t (fun c => ?_) fun c hc => ?_
  · rw [role?_uncommented]
  · -- a loose comment has no role
    obtain ⟨-, hrole⟩ := Bool.and_eq_true_iff.mp hc
    rw [Option.isNone_iff_eq_none.mp hrole]
    rfl

theorem part?_uncommented (r : Role) :
    t.uncommented.part? r = (t.part? r).map uncommented := by
  rw [part?, part?, parts_uncommented, List.head?_map]

theorem content?_uncommented : t.uncommented.content? = t.content?.map uncommented := by
  refine find?_namedChildren_uncommented t (fun c => ?_) fun c hc => ?_
  · rw [isComment_uncommented]
  · rw [hc]
    rfl

end Children

/-! ## Words -/

theorem isNumberWord_uncommented (t : Tree) : t.uncommented.isNumberWord = t.isNumberWord := by
  cases t <;> rfl

/-- Whether the words of a node fit has nothing to do with comments. -/
theorem fitsWords_uncommented (t : Tree) : t.uncommented.fitsWords = t.fitsWords := by
  have hnumber : t.uncommented.children.any isNumberWord = t.children.any isNumberWord := by
    refine any_children_uncommented t isNumberWord_uncommented fun c hc => ?_
    simp [isNumberWord, isComment_of_isLoose hc]
  have hpart : ∀ r, (t.uncommented.part? r).all isLeaf = (t.part? r).all isLeaf := by
    intro r
    rw [part?_uncommented, Option.all_map]
    exact congrArg (fun p => (t.part? r).all p) (funext isLeaf_uncommented)
  have htype : (t.uncommented.namedChildren.any fun c =>
        !c.isComment && !(["modifiers", "variable_declarator"].contains c.kind)) =
      t.namedChildren.any fun c =>
        !c.isComment && !(["modifiers", "variable_declarator"].contains c.kind) := by
    rw [namedChildren, namedChildren, List.any_filter, List.any_filter]
    refine any_children_uncommented t (fun c => ?_) fun c hc => ?_
    · rw [isNamed_uncommented, isComment_uncommented, kind_uncommented]
    · rw [isComment_of_isLoose hc, Bool.not_true, Bool.false_and, Bool.and_false]
  have hdeclarators : ((t.uncommented.parts .declarator).all
      fun d => d.kind == "variable_declarator") =
        (t.parts .declarator).all fun d => d.kind == "variable_declarator" := by
    rw [parts_uncommented, List.all_map]
    simp [Function.comp_def]
  unfold fitsWords
  rw [kind_uncommented, isLeaf_uncommented, hnumber, hpart, hpart, htype, hdeclarators]

namespace FitsWords

variable {t c : Tree}

theorem node (h : t.uncommented.FitsWords) : t.fitsWords = true := by
  rw [← fitsWords_uncommented]
  exact (everywhere_iff.mp h).1

theorem child (h : t.uncommented.FitsWords) (hc : c ∈ t.children) (hloose : c.isLoose = false) :
    c.uncommented.FitsWords :=
  (everywhere_iff.mp h).2 _ (mem_children_uncommented hc hloose)

theorem part? (h : t.uncommented.FitsWords) {r : Role} (hc : t.part? r = some c) :
    c.uncommented.FitsWords := by
  obtain ⟨hmem, hrole⟩ := List.mem_filter.mp (List.mem_of_head? hc)
  exact h.child hmem (isLoose_of_role (beq_iff_eq.mp hrole))

theorem content? (h : t.uncommented.FitsWords) (hc : t.content? = some c) :
    c.uncommented.FitsWords := by
  have hcomment : (!c.isComment) = true := List.find?_some (p := fun c : Tree => !c.isComment) hc
  exact h.child (mem_of_content? hc) (isLoose_of_isComment ((Bool.not_eq_true' _).mp hcomment))

/-- Without the comments, too, the words of a tree fit. -/
theorem uncommented (h : t.FitsWords) : t.uncommented.FitsWords := by
  induction t using children_induction with
  | step t ih =>
      obtain ⟨hnode, hchildren⟩ := everywhere_iff.mp h
      refine everywhere_iff.mpr ⟨by rw [fitsWords_uncommented, hnode], fun c hc => ?_⟩
      rw [children_uncommented] at hc
      obtain ⟨d, hd, rfl⟩ := List.mem_map.mp hc
      have hmem := (List.mem_filter.mp hd).1
      exact ih d hmem (hchildren d hmem)

end FitsWords

/-! ## Members -/

theorem memberNodes_of_isComment {t : Tree} (h : t.isComment = true) : t.memberNodes = [] := by
  cases t with
  | leaf role token => rw [memberNodes, h, Bool.not_true, Bool.and_false]; rfl
  | node role kind cs =>
      have hkind : kind ≠ "enum_body_declarations" :=
        kind_ne_of_isComment h (by decide) (by decide)
      rw [memberNodes, if_neg hkind, if_pos h]

mutual

theorem memberNodes_uncommented :
    ∀ t : Tree, t.uncommented.memberNodes = t.memberNodes.map Tree.uncommented
  | leaf role token => by
      rw [uncommented, memberNodes]
      split <;> rfl
  | node role kind cs => by
      have hcomment : (node role kind (uncommentedAll cs)).isComment = (node role kind cs).isComment :=
        rfl
      rw [uncommented, memberNodes, memberNodes, memberNodesIn_uncommentedAll cs, hcomment]
      split
      · rfl
      · split <;> rfl

theorem memberNodesIn_uncommentedAll :
    ∀ ts : List Tree, memberNodesIn (uncommentedAll ts) = (memberNodesIn ts).map Tree.uncommented
  | [] => rfl
  | t :: ts => by
      rw [uncommentedAll, memberNodesIn, List.map_append, ← memberNodesIn_uncommentedAll ts,
        ← memberNodes_uncommented t]
      cases hloose : t.isLoose with
      | true =>
          rw [if_pos rfl, memberNodes_of_isComment (t := t.uncommented)]
          · rfl
          · rw [isComment_uncommented, isComment_of_isLoose hloose]
      | false => rw [if_neg Bool.false_ne_true, memberNodesIn]

end

/-- A type declares the same members. -/
theorem declaredMembers_uncommented (t : Tree) :
    t.uncommented.declaredMembers = t.declaredMembers.map Tree.uncommented := by
  rw [declaredMembers, declaredMembers, part?_uncommented]
  cases t.part? .body with
  | none => rfl
  | some body =>
      have hchildren : body.uncommented.children = uncommentedAll body.children := by
        rw [children_uncommented, uncommentedAll_eq]
      show memberNodesIn body.uncommented.children = _
      rw [hchildren, memberNodesIn_uncommentedAll]
      rfl

end AccessorScan.Tree
