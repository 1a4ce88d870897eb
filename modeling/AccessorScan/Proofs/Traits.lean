import AccessorScan.Proofs.Occurrences
import AccessorScan.Proofs.Reading
import AccessorScan.Proofs.Shape
import AccessorScan.Syntax.Source
import Mathlib.Data.List.TakeWhile

/-!
# `Proofs.Traits` — a check of grammars that makes their trees fit

What a rule leaves behind can be told from the rule to some extent: that there is a part among the
trees, that one has a given role, that one may be a type. Where a rule makes a node, these traits
decide whether the node fits. The check follows the rule as a run does, with traits in the place of
trees, and each phrase only promises some.

## Contents
- `Tree.plainNames`, `Tree.fitsRole`, `Tree.isGood`: what is asked of all nodes.
- `Lexeme.Fits`: what is known of the lexemes of a source.
- `Trait`, `Rule.traits`, `Rule.check`: the check.
- `Collected`: trees that fit and have some traits.
- `Collected.append`, `Collected.labelled`, `Collected.wrap`, `Collected.leaf`: how the trees of a rule
  come from those of its parts.
-/

namespace AccessorScan

/-! ## What is asked of nodes and lexemes -/

namespace Tree

/-- What stands in the role of a name has no dot in it. Only a module has a qualified name. -/
def plainNames (t : Tree) : Bool :=
  t.kind == "module_declaration" || (t.parts .name).all fun c => decide (IsPlainName c.text)

/-- What is asked of a child of a node of this kind for its role. -/
def fitsRole (kind : String) (c : Tree) : Bool :=
  match c.role? with
  | some .name => kind == "module_declaration" || c.isLeaf && decide (IsPlainName c.text)
  | some .operator => c.isLeaf
  | some .declarator => c.kind == "variable_declarator"
  | some .parameters => !bareKinds.contains kind
  | _ => true

/-- A node as the grammar makes it. -/
def isGood (t : Tree) : Bool := t.fitsKind && t.plainNames && t.fitsWords && t.fitsDeclaration

end Tree

/-- Nothing is asked of what has this role. -/
def Role.isFree (r : Role) : Bool :=
  !([Role.name, .operator, .declarator, .parameters].contains r)

/-- The kinds of aside. -/
def asideKinds : List String := ["line_comment", "block_comment", Tree.skippedKind]

/-- The kinds that are asked for something, also if they are leaves. -/
def askedKinds : List String :=
  ["formal_parameter", "spread_parameter", "variable_declarator", "void_type", "boolean_type",
    "integral_type", "floating_point_type", "assignment_expression", "class_declaration",
    "interface_declaration", "enum_declaration", "record_declaration"]

/-- A leaf of this kind is no aside, and nothing is asked of it. -/
def isFreeKind (kind : String) : Bool := !asideKinds.contains kind && !askedKinds.contains kind

/-- A lexeme as it comes out of a source or of a repair. -/
structure Lexeme.Fits (l : Lexeme) : Prop where
  word : l.kind = .word → IsPlainName l.text
  literal : ∀ kind, l.kind = .literal kind → isFreeKind kind = true
  supplied : l.kind = .supplied → l.text ∈ suppliedMarks
  asides : ∀ a ∈ l.asides, a.kind ∈ asideKinds

/-! ## Traits -/

/-- What may be known of one of the trees collected so far, besides that it is no aside. -/
inductive Trait where
  | part
  /-- It counts as a part of its own and may be a type. -/
  | typed
  /-- It counts as a part of its own and is a declarator. -/
  | declarator
  | role (r : Role)
  deriving DecidableEq, Repr

namespace Trait

def On : Trait → Tree → Prop
  | part, _ => True
  | typed, t => t.isNamed = true ∧ t.kind ≠ "modifiers" ∧ t.kind ≠ "variable_declarator"
  | declarator, t => t.isNamed = true ∧ t.kind = "variable_declarator"
  | role r, t => t.role? = some r

/-- One of the trees, no aside, has the trait. -/
def In (x : Trait) (ts : List Tree) : Prop := ∃ t ∈ ts, t.isAside = false ∧ x.On t

/-- The traits of a tree of this kind that counts as a part of its own. -/
def ofKind (kind : String) : List Trait :=
  if kind = "variable_declarator" then [.part, .declarator]
  else if kind = "modifiers" then [.part]
  else [.part, .typed]

/-- The traits that trees keep when they get a role. -/
def relabelled (r : Role) (xs : List Trait) : List Trait :=
  xs.filter (fun x => x == .typed || x == .declarator || x == .part) ++
    if xs.contains .part then [.role r] else []

/-- The node of this kind around trees with these traits fits. -/
def suffice (kind : String) (xs : List Trait) : Bool :=
  match kind with
  | "formal_parameter" => xs.contains (.role .name) && xs.contains (.role .type)
  | "spread_parameter" => xs.contains .declarator && xs.contains .typed
  | "variable_declarator" => xs.contains (.role .name)
  | "assignment_expression" => xs.contains (.role .left) && xs.contains (.role .right)
  | "class_declaration" | "interface_declaration" | "enum_declaration" | "record_declaration" =>
      xs.contains (.role .name)
  | kind => isFreeKind kind && kind != "identifier"

end Trait

namespace LexemeRule

/-- The leaf that the rule makes of any lexeme fits. -/
def fits : LexemeRule → Bool
  | word kind _ => isFreeKind kind
  | exact text => isFreeKind text
  | named kind text =>
      !asideKinds.contains kind && !suppliedMarks.contains text &&
        (Tree.leaf none ⟨kind, true, false, "", text, 0⟩).isGood
  | literal => true
  | piece _ => true

def traits : LexemeRule → List Trait
  | word kind _ => Trait.ofKind kind
  | exact _ => [.part]
  | named kind _ => Trait.ofKind kind
  | literal => [.part]
  | piece _ => [.part]

end LexemeRule

/-! ## The check -/

namespace Rule

variable {P : Type} (promised : P → List Trait)

mutual

/-- The traits of the trees after the rule, from those before it and those that phrases promise. -/
def traits : Rule P → List Trait → List Trait
  | .phrase p, xs => promised p ++ xs
  | .lexeme r, xs => r.traits ++ xs
  | .joined _, xs => .part :: xs
  | .finish, xs => xs
  | .all rs, xs => traitsAll rs xs
  | .any rs, xs => traitsAny rs xs
  | .many r, xs => xs.filter (traits r xs).contains
  | .role r rule, xs => Trait.relabelled r (traits rule []) ++ xs
  | .node kind _, xs => Trait.ofKind kind ++ xs
  | .around kind _ _, _ => Trait.ofKind kind
  | .next _ _, xs => xs
  | .after _, xs => .part :: xs

def traitsAll : List (Rule P) → List Trait → List Trait
  | [], xs => xs
  | r :: rs, xs => traitsAll rs (traits r xs)

/-- What all alternatives have in common. -/
def traitsAny : List (Rule P) → List Trait → List Trait
  | [], xs => xs
  | [r], xs => traits r xs
  | r :: rs, xs => (traits r xs).filter (traitsAny rs xs).contains

end

/-- The traits that every round of a repeated rule keeps, if one does. -/
def kept (r : Rule P) (xs : List Trait) : List Trait := xs.filter (traits promised r xs).contains

def isWord : Rule P → Bool
  | .lexeme (.word _ _) => true
  | _ => false

/-- The rule makes one leaf. -/
def isMark : Rule P → Bool
  | .lexeme _ => true
  | .joined _ => true
  | _ => false

/-- The rule makes one leaf, whichever alternative it takes. -/
def isMarks : Rule P → Bool
  | .any rs => rs.all isMark
  | rule => rule.isMark

def isNode (kind : String) : Rule P → Bool
  | .node k _ => k == kind
  | _ => false

/-- What the rule makes may get the role in a node of the kind `inner`, or in any node. -/
def mayGet (inner : Option String) (rule : Rule P) : Role → Bool
  | .name => inner == some "module_declaration" || rule.isWord
  | .operator => rule.isMarks
  | .declarator => rule.isNode "variable_declarator"
  | .parameters => inner.any fun kind => !Tree.bareKinds.contains kind
  | _ => true

mutual

/-- The nodes that the rule makes after trees with these traits fit, and what it makes outside of them
    may stand in a node of the kind `inner`, or in any node if no kind is given. -/
def check (inner : Option String) : Rule P → List Trait → Bool
  | .phrase _, _ => true
  | .lexeme r, _ => r.fits
  | .joined texts, _ => isFreeKind (String.join texts)
  | .finish, _ => true
  | .all rs, xs => checkAll inner rs xs
  | .any rs, xs => checkAny inner rs xs
  | .many r, xs =>
      check inner r (kept promised r xs) &&
        (kept promised r xs).all (traits promised r (kept promised r xs)).contains
  | .role r rule, _ => check inner rule [] && mayGet inner rule r
  | .node kind rule, _ =>
      check (some kind) rule [] && Trait.suffice kind (traits promised rule [])
  | .around kind r? rule, xs =>
      let before := match r? with | some r => Trait.relabelled r xs | none => xs
      inner.isNone && r?.all Role.isFree && check (some kind) rule before &&
        Trait.suffice kind (traits promised rule before)
  | .next _ _, _ => true
  | .after kinds, _ => kinds.all fun k => !asideKinds.contains k

def checkAll (inner : Option String) : List (Rule P) → List Trait → Bool
  | [], _ => true
  | r :: rs, xs => check inner r xs && checkAll inner rs (traits promised r xs)

def checkAny (inner : Option String) : List (Rule P) → List Trait → Bool
  | [], _ => true
  | r :: rs, xs => check inner r xs && checkAny inner rs xs

end

end Rule

/-! ## Kinds -/

theorem Tree.isAside_iff {t : Tree} : t.isAside = true ↔ t.kind ∈ asideKinds := by
  simp [isAside, isComment, asideKinds, or_assoc]

theorem Tree.fitsKind_of_not_asked {t : Tree} (h : t.kind ∉ askedKinds) : t.fitsKind = true := by
  unfold fitsKind
  split <;> simp_all [askedKinds]

/-- A leaf of which nothing is asked fits. -/
theorem Tree.isGood_leaf {role : Option Role} {token : Token} (h : token.kind ∉ askedKinds) :
    (leaf role token).isGood = true := by
  have hkind : (leaf role token).fitsKind = true := fitsKind_of_not_asked h
  have hwords : (leaf role token).fitsWords = true := by
    unfold fitsWords
    split <;> simp_all [askedKinds, kind, isLeaf, part?, parts, children]
  have hdeclaration : (leaf role token).fitsDeclaration = true := by
    have hnone : TypeKind.ofDeclaration? token.kind = none := by
      unfold TypeKind.ofDeclaration?
      split <;> simp_all [askedKinds]
    refine fitsDeclaration_iff.mpr ⟨nofun, fun h' => ?_, fun _ => rfl⟩
    rw [kind, hnone] at h'
    cases h'
  rw [isGood, hkind, hwords, hdeclaration]
  simp [plainNames, parts, children]

theorem not_aside_of_isFreeKind {kind : String} (h : isFreeKind kind = true) :
    kind ∉ asideKinds ∧ kind ∉ askedKinds := by
  simpa [isFreeKind] using h

/-- What is asked for is no aside. -/
theorem not_aside_of_suffice {kind : String} {xs : List Trait} (h : Trait.suffice kind xs = true) :
    kind ∉ asideKinds := by
  unfold Trait.suffice at h
  split at h
  any_goals decide
  exact (not_aside_of_isFreeKind (Bool.and_eq_true_iff.mp h).1).1

theorem aside_not_asked {kind : String} (h : kind ∈ asideKinds) : kind ∉ askedKinds := by
  simp only [asideKinds, List.mem_cons, List.not_mem_nil, or_false] at h
  rcases h with rfl | rfl | rfl <;> decide

/-! ## Trees that fit -/

/-- The trees fit and have these traits, asides among them have no role, and all of them may stand in a
    node of the kind `inner`, or in any node if no kind is given. -/
structure Collected (inner : Option String) (xs : List Trait) (ts : List Tree) : Prop where
  good : ∀ t ∈ ts, t.everywhere Tree.isGood = true
  traits : ∀ x ∈ xs, x.In ts
  asides : ∀ t ∈ ts, t.isAside = true → t.role? = none
  roles : ∀ kind, (∀ k, inner = some k → k = kind) → ∀ t ∈ ts, t.fitsRole kind = true

namespace Collected

variable {inner : Option String} {xs ys : List Trait} {as bs ts : List Tree}

theorem nil : Collected inner [] [] := by
  constructor <;> simp

theorem mono (h : Collected inner xs ts) (hsub : ∀ y ∈ ys, y ∈ xs) : Collected inner ys ts :=
  ⟨h.good, fun y hy => h.traits y (hsub y hy), h.asides, h.roles⟩

/-- What may stand in any node may stand in one of a given kind. -/
theorem of_any (h : Collected none xs ts) : Collected inner xs ts :=
  ⟨h.good, h.traits, h.asides, fun kind _ => h.roles kind nofun⟩

theorem append (ha : Collected inner xs as) (hb : Collected inner ys bs) :
    Collected inner (ys ++ xs) (as ++ bs) where
  good := fun t ht => (List.mem_append.mp ht).elim (ha.good t) (hb.good t)
  traits := by
    intro x hx
    rcases List.mem_append.mp hx with hx | hx
    · obtain ⟨t, ht, hon⟩ := hb.traits x hx
      exact ⟨t, List.mem_append_right as ht, hon⟩
    · obtain ⟨t, ht, hon⟩ := ha.traits x hx
      exact ⟨t, List.mem_append_left bs ht, hon⟩
  asides := fun t ht => (List.mem_append.mp ht).elim (ha.asides t) (hb.asides t)
  roles := fun kind hk t ht => (List.mem_append.mp ht).elim (ha.roles kind hk t) (hb.roles kind hk t)

end Collected

/-! ### Roles -/

theorem Tree.everywhere_withRole (t : Tree) (r : Role) :
    (t.withRole r).everywhere isGood = t.everywhere isGood := by
  cases t <;> rfl

theorem Tree.isAside_withRole (t : Tree) (r : Role) : (t.withRole r).isAside = t.isAside := by
  cases t <;> rfl

theorem Tree.text_withRole (t : Tree) (r : Role) : (t.withRole r).text = t.text := by
  cases t <;> rfl

theorem Tree.kind_withRole (t : Tree) (r : Role) : (t.withRole r).kind = t.kind := by
  cases t <;> rfl

theorem Tree.isLeaf_withRole (t : Tree) (r : Role) : (t.withRole r).isLeaf = t.isLeaf := by
  cases t <;> rfl

theorem Tree.role?_withRole (t : Tree) (r : Role) : (t.withRole r).role? = some r := by
  cases t <;> rfl

/-- Nothing is asked of a tree without a role. -/
theorem Tree.fitsRole_of_none {kind : String} {t : Tree} (h : t.role? = none) :
    t.fitsRole kind = true := by
  rw [fitsRole, h]

theorem Tree.fitsRole_withRole_of_isFree {kind : String} {r : Role} (h : r.isFree = true)
    (t : Tree) : (t.withRole r).fitsRole kind = true := by
  rw [fitsRole, role?_withRole]
  cases r <;> first | rfl | exact absurd h (by decide)

theorem Trait.on_withRole {x : Trait} {t : Tree} {r : Role} (hx : ∀ r, x ≠ .role r) (h : x.On t) :
    x.On (t.withRole r) := by
  cases x with
  | part => trivial
  | typed => cases t <;> exact h
  | declarator => cases t <;> exact h
  | role r => exact absurd rfl (hx r)

theorem mem_labelled {r : Role} {ts : List Tree} {t : Tree} :
    t ∈ labelled r ts ↔
      t ∈ ts ∧ t.isAside = true ∨ ∃ c ∈ ts, c.isAside = false ∧ c.withRole r = t := by
  rw [labelled, List.mem_map]
  constructor
  · rintro ⟨c, hc, rfl⟩
    cases haside : c.isAside with
    | true =>
        rw [if_pos rfl]
        exact .inl ⟨hc, haside⟩
    | false =>
        rw [if_neg Bool.false_ne_true]
        exact .inr ⟨c, hc, haside, rfl⟩
  · rintro (⟨ht, haside⟩ | ⟨c, hc, haside, rfl⟩)
    · exact ⟨t, ht, by simp [haside]⟩
    · exact ⟨c, hc, by simp [haside]⟩

theorem Collected.labelled {outer inner : Option String} {xs : List Trait} {ts : List Tree}
    {r : Role} (h : Collected outer xs ts)
    (hrole : ∀ kind, (∀ k, inner = some k → k = kind) → ∀ t ∈ ts, t.isAside = false →
      (t.withRole r).fitsRole kind = true) :
    Collected inner (Trait.relabelled r xs) (labelled r ts) where
  good := by
    intro t ht
    rcases mem_labelled.mp ht with ⟨ht, -⟩ | ⟨c, hc, -, rfl⟩
    · exact h.good t ht
    · rw [Tree.everywhere_withRole]
      exact h.good c hc
  traits := by
    intro x hx
    rcases List.mem_append.mp hx with hx | hx
    · -- a trait that does not speak of roles stays with its tree
      obtain ⟨hx, hkeeps⟩ := List.mem_filter.mp hx
      obtain ⟨c, hc, haside, hon⟩ := h.traits x hx
      refine ⟨c.withRole r, mem_labelled.mpr (.inr ⟨c, hc, haside, rfl⟩), ?_, ?_⟩
      · rw [Tree.isAside_withRole, haside]
      · refine Trait.on_withRole (fun r' hr' => ?_) hon
        rw [hr'] at hkeeps
        simp at hkeeps
    · split at hx
      next hpart =>
          obtain rfl := List.mem_singleton.mp hx
          obtain ⟨c, hc, haside, -⟩ := h.traits .part (List.contains_iff_mem.mp hpart)
          refine ⟨c.withRole r, mem_labelled.mpr (.inr ⟨c, hc, haside, rfl⟩), ?_, ?_⟩
          · rw [Tree.isAside_withRole, haside]
          · exact Tree.role?_withRole c r
      next => cases hx
  asides := by
    intro t ht haside
    rcases mem_labelled.mp ht with ⟨ht, -⟩ | ⟨c, hc, hc', rfl⟩
    · exact h.asides t ht haside
    · rw [Tree.isAside_withRole, hc'] at haside
      cases haside
  roles := by
    intro kind hk t ht
    rcases mem_labelled.mp ht with ⟨ht, haside⟩ | ⟨c, hc, hc', rfl⟩
    · exact Tree.fitsRole_of_none (h.asides t ht haside)
    · exact hrole kind hk c hc hc'

/-! ### Nodes -/

namespace Trait

variable {x : Trait} {ts : List Tree}

theorem In.dropWhile (h : x.In ts) : x.In (ts.dropWhile Tree.isAside) := by
  obtain ⟨t, ht, haside, hon⟩ := h
  refine ⟨t, ?_, haside, hon⟩
  rw [← List.takeWhile_append_dropWhile (p := Tree.isAside) (l := ts)] at ht
  rcases List.mem_append.mp ht with ht | ht
  · rw [List.mem_takeWhile_imp ht] at haside
    cases haside
  · exact ht

theorem In.part?_isSome {r : Role} (h : (Trait.role r).In ts) {role : Option Role} {kind : String} :
    ((Tree.node role kind ts).part? r).isSome = true := by
  obtain ⟨t, ht, -, hrole⟩ := h
  have hmem : t ∈ (Tree.node role kind ts).parts r :=
    List.mem_filter.mpr ⟨ht, by rw [beq_iff_eq]; exact hrole⟩
  rw [Tree.part?, List.isSome_head?]
  exact List.ne_nil_of_mem hmem

theorem In.spreadDeclarator?_isSome (h : declarator.In ts) {role : Option Role} {kind : String} :
    (Tree.node role kind ts).spreadDeclarator?.isSome = true := by
  obtain ⟨t, ht, -, hnamed, hkind⟩ := h
  rw [Tree.spreadDeclarator?, List.find?_isSome]
  exact ⟨t, List.mem_filter.mpr ⟨ht, hnamed⟩, by simp [hkind]⟩

theorem In.spreadType?_isSome (h : typed.In ts) {role : Option Role} {kind : String} :
    (Tree.node role kind ts).spreadType?.isSome = true := by
  obtain ⟨t, ht, -, hnamed, hmodifiers, hdeclarator⟩ := h
  rw [Tree.spreadType?, List.find?_isSome]
  exact ⟨t, List.mem_filter.mpr ⟨ht, hnamed⟩, by simp [hmodifiers, hdeclarator]⟩

/-- Where the traits suffice the node fits. -/
theorem fitsKind_of_suffice {xs : List Trait} {kind : String} (hs : suffice kind xs = true)
    (h : ∀ x ∈ xs, x.In ts) : (Tree.node none kind ts).fitsKind = true := by
  unfold suffice at hs
  split at hs
  next =>
      simp only [Bool.and_eq_true, List.contains_iff_mem] at hs
      exact Bool.and_eq_true_iff.mpr ⟨(h _ hs.1).part?_isSome, (h _ hs.2).part?_isSome⟩
  next =>
      simp only [Bool.and_eq_true, List.contains_iff_mem] at hs
      exact Bool.and_eq_true_iff.mpr
        ⟨(h _ hs.1).spreadDeclarator?_isSome, (h _ hs.2).spreadType?_isSome⟩
  next => exact (h _ (List.contains_iff_mem.mp hs)).part?_isSome
  next =>
      simp only [Bool.and_eq_true, List.contains_iff_mem] at hs
      exact Bool.and_eq_true_iff.mpr ⟨(h _ hs.1).part?_isSome, (h _ hs.2).part?_isSome⟩
  any_goals rfl
  next =>
      have hfree := (Bool.and_eq_true_iff.mp hs).1
      exact Tree.fitsKind_of_not_asked (not_aside_of_isFreeKind hfree).2

/-- Where the roles are those of the kind, so are the parts. -/
theorem part?_fitsRole {kind : String} {role : Option Role} {r : Role} {c : Tree}
    (hroles : ∀ t ∈ ts, t.fitsRole kind = true) (hc : (Tree.node role kind ts).part? r = some c) :
    c.role? = some r ∧ c.fitsRole kind = true := by
  obtain ⟨hmem, hrole⟩ := List.mem_filter.mp (List.mem_of_head? hc)
  exact ⟨beq_iff_eq.mp hrole, hroles c hmem⟩

theorem declarators_of_roles {kind : String} {role : Option Role}
    (hroles : ∀ t ∈ ts, t.fitsRole kind = true) :
    ∀ d ∈ (Tree.node role kind ts).parts .declarator, d.kind = "variable_declarator" := by
  intro d hd
  obtain ⟨hmem, hrole⟩ := List.mem_filter.mp hd
  have hfits := hroles d hmem
  rw [Tree.fitsRole, beq_iff_eq.mp hrole] at hfits
  exact beq_iff_eq.mp hfits

/-- Where the traits suffice the words of the node fit. -/
theorem fitsWords_of_suffice {xs : List Trait} {kind : String} (hs : suffice kind xs = true)
    (h : ∀ x ∈ xs, x.In ts) (hroles : ∀ t ∈ ts, t.fitsRole kind = true) :
    (Tree.node none kind ts).fitsWords = true := by
  have hword : kind ∉ ["identifier", "void_type", "boolean_type", "integral_type",
      "floating_point_type"] := by
    intro hkind
    simp only [List.mem_cons, List.not_mem_nil, or_false] at hkind
    rcases hkind with rfl | rfl | rfl | rfl | rfl <;>
      simp [suffice, isFreeKind, askedKinds] at hs
  have hdeclarators : ∀ d ∈ (Tree.node none kind ts).parts .declarator,
      d.kind = "variable_declarator" := declarators_of_roles hroles
  unfold Tree.fitsWords
  split
  case h_6 hkind =>
      refine (Option.all_eq_true _ _).mpr fun c hc => ?_
      obtain ⟨hrole, hfits⟩ := part?_fitsRole hroles hc
      rw [Tree.fitsRole, hrole] at hfits
      exact hfits
  case h_7 hkind =>
      obtain rfl : kind = "spread_parameter" := hkind
      -- what may be a type is no comment
      simp only [suffice, Bool.and_eq_true, List.contains_iff_mem] at hs
      obtain ⟨c, hc, haside, hnamed, hmodifiers, hdeclarator⟩ := h _ hs.2
      refine List.any_eq_true.mpr ⟨c, List.mem_filter.mpr ⟨hc, hnamed⟩, ?_⟩
      rw [Tree.isAside, Bool.or_eq_false_iff] at haside
      simp [haside.1, hmodifiers, hdeclarator]
  case h_10 =>
      rw [Bool.or_eq_true, Bool.not_eq_true']
      by_cases hnaming : kind ∈ Tree.namingKinds
      · refine .inr ((Option.all_eq_true _ _).mpr fun c hc => ?_)
        obtain ⟨hrole, hfits⟩ := part?_fitsRole hroles hc
        have hmodule : kind ≠ "module_declaration" := by
          rintro rfl
          exact absurd hnaming (by decide)
        simp only [Tree.fitsRole, hrole, beq_iff_eq, hmodule, Bool.or_eq_true, false_or,
          Bool.and_eq_true] at hfits
        exact hfits.1
      · exact .inl (by simpa [Tree.kind] using hnaming)
  case h_8 => exact List.all_eq_true.mpr fun d hd => beq_iff_eq.mpr (hdeclarators d hd)
  case h_9 => exact List.all_eq_true.mpr fun d hd => beq_iff_eq.mpr (hdeclarators d hd)
  all_goals
    next hkind => exact absurd (show kind = _ from hkind) fun h => hword (by simp [h])

/-- Where the traits suffice the declarations of the node fit. -/
theorem fitsDeclaration_of_suffice {xs : List Trait} {kind : String} (hs : suffice kind xs = true)
    (h : ∀ x ∈ xs, x.In ts) (hroles : ∀ t ∈ ts, t.fitsRole kind = true) :
    (Tree.node none kind ts).fitsDeclaration = true := by
  refine Tree.fitsDeclaration_iff.mpr
    ⟨declarators_of_roles hroles, fun htype => ?_, fun hkind => ?_⟩
  · have hname : suffice kind xs = xs.contains (.role .name) := by
      rw [Tree.kind] at htype
      unfold TypeKind.ofDeclaration? at htype
      split at htype
      any_goals rfl
      cases htype
    rw [hname] at hs
    exact (h (.role .name) (List.contains_iff_mem.mp hs)).part?_isSome
  · refine List.filter_eq_nil_iff.mpr fun c hc hrole => ?_
    have hfits := hroles c hc
    rw [Tree.fitsRole, beq_iff_eq.mp hrole] at hfits
    rw [Tree.kind] at hkind
    simp [hkind] at hfits

theorem plainNames_of_roles {kind : String} (hroles : ∀ t ∈ ts, t.fitsRole kind = true) :
    (Tree.node none kind ts).plainNames = true := by
  rw [Tree.plainNames, Bool.or_eq_true]
  by_cases hmodule : kind = "module_declaration"
  · exact .inl (by simp [Tree.kind, hmodule])
  · refine .inr (List.all_eq_true.mpr fun t ht => ?_)
    obtain ⟨ht, hrole⟩ := List.mem_filter.mp ht
    have hfits := hroles t ht
    simp only [Tree.fitsRole, beq_iff_eq.mp hrole, beq_iff_eq, hmodule, Bool.or_eq_true, false_or,
      Bool.and_eq_true] at hfits
    exact hfits.2

/-- Where the traits suffice the node is as the grammar makes it. -/
theorem isGood_of_suffice {xs : List Trait} {kind : String} (hs : suffice kind xs = true)
    (h : ∀ x ∈ xs, x.In ts) (hroles : ∀ t ∈ ts, t.fitsRole kind = true) :
    (Tree.node none kind ts).isGood = true := by
  rw [Tree.isGood, fitsKind_of_suffice hs h, plainNames_of_roles hroles,
    fitsWords_of_suffice hs h hroles, fitsDeclaration_of_suffice hs h hroles]
  rfl

theorem on_ofKind {t : Tree} (hnamed : t.isNamed = true) (hx : x ∈ ofKind t.kind) : x.On t := by
  unfold ofKind at hx
  by_cases hdeclarator : t.kind = "variable_declarator"
  · rw [if_pos hdeclarator, List.mem_cons, List.mem_singleton] at hx
    rcases hx with rfl | rfl
    · trivial
    · exact ⟨hnamed, hdeclarator⟩
  · rw [if_neg hdeclarator] at hx
    by_cases hmodifiers : t.kind = "modifiers"
    · rw [if_pos hmodifiers] at hx
      obtain rfl := List.mem_singleton.mp hx
      trivial
    · rw [if_neg hmodifiers, List.mem_cons, List.mem_singleton] at hx
      rcases hx with rfl | rfl
      · trivial
      · exact ⟨hnamed, hmodifiers, hdeclarator⟩

end Trait

/-- **Nodes.** A node around trees with enough traits fits, if these may stand in it. -/
theorem Collected.wrap {inner : Option String} {xs : List Trait} {ts : List Tree} {kind : String}
    (h : Collected (some kind) xs ts) (hs : Trait.suffice kind xs = true) :
    Collected inner (Trait.ofKind kind) (Tree.wrap kind ts) := by
  have hkind := not_aside_of_suffice hs
  have hdrop : ∀ t ∈ ts.dropWhile Tree.isAside, t ∈ ts := fun t ht =>
    (List.dropWhile_sublist Tree.isAside).mem ht
  have htake : ∀ t ∈ ts.takeWhile Tree.isAside, t ∈ ts ∧ t.isAside = true := fun t ht =>
    ⟨(List.takeWhile_sublist Tree.isAside).mem ht, List.mem_takeWhile_imp ht⟩
  have hnode : (Tree.node none kind (ts.dropWhile Tree.isAside)).everywhere Tree.isGood = true := by
    refine Tree.everywhere_iff.mpr ⟨?_, fun t ht => h.good t (hdrop t ht)⟩
    refine Trait.isGood_of_suffice hs (fun x hx => (h.traits x hx).dropWhile) fun t ht => ?_
    exact h.roles kind (fun _ hk => (Option.some.inj hk).symm) t (hdrop t ht)
  -- the asides in front stay outside of the node, and they have neither traits nor roles
  show Collected inner _ (ts.takeWhile Tree.isAside ++ [Tree.node none kind _])
  constructor
  · intro t ht
    rcases List.mem_append.mp ht with ht | ht
    · exact h.good t (htake t ht).1
    · obtain rfl := List.mem_singleton.mp ht
      exact hnode
  · intro x hx
    refine ⟨_, List.mem_append_right _ (List.mem_singleton_self _), ?_, Trait.on_ofKind rfl hx⟩
    rw [← Bool.not_eq_true, Tree.isAside_iff]
    exact hkind
  · intro t ht haside
    rcases List.mem_append.mp ht with ht | ht
    · exact h.asides t (htake t ht).1 haside
    · obtain rfl := List.mem_singleton.mp ht
      rfl
  · intro k _ t ht
    refine Tree.fitsRole_of_none ?_
    rcases List.mem_append.mp ht with ht | ht
    · exact h.asides t (htake t ht).1 (htake t ht).2
    · obtain rfl := List.mem_singleton.mp ht
      rfl

/-! ### Leaves -/

theorem Collected.asideLeaves {inner : Option String} {asides : List Aside}
    (h : ∀ a ∈ asides, a.kind ∈ asideKinds) : Collected inner [] (asides.map Aside.leaf) := by
  constructor
  · intro t ht
    obtain ⟨a, ha, rfl⟩ := List.mem_map.mp ht
    have hgood : a.leaf.isGood = true := Tree.isGood_leaf (aside_not_asked (h a ha))
    exact hgood
  · exact nofun
  · intro t ht _
    obtain ⟨a, -, rfl⟩ := List.mem_map.mp ht
    rfl
  · intro kind _ t ht
    obtain ⟨a, -, rfl⟩ := List.mem_map.mp ht
    rfl

theorem Collected.leaf {inner : Option String} {xs : List Trait} {token : Token}
    (hkind : token.kind ∉ asideKinds) (hgood : (Tree.leaf none token).isGood = true)
    (hxs : ∀ x ∈ xs, x.On (.leaf none token)) : Collected inner xs [.leaf none token] := by
  constructor
  · intro t ht
    obtain rfl := List.mem_singleton.mp ht
    exact hgood
  · intro x hx
    refine ⟨_, List.mem_singleton_self _, ?_, hxs x hx⟩
    rw [← Bool.not_eq_true, Tree.isAside_iff]
    exact hkind
  · intro t ht _
    obtain rfl := List.mem_singleton.mp ht
    rfl
  · intro kind _ t ht
    obtain rfl := List.mem_singleton.mp ht
    rfl

/-- A lexeme that was not supplied keeps its text. -/
theorem Lexeme.leaves_eq (l : Lexeme) (kind : String) (named : Bool) :
    ∃ token, l.leaves kind named = l.asides.map Aside.leaf ++ [.leaf none token] ∧
      token.kind = kind ∧ token.isNamed = named ∧ (l.kind ≠ .supplied → token.text = l.text) := by
  refine ⟨_, rfl, rfl, rfl, fun h => ?_⟩
  simp [h]

/-- Leaves of a kind of which nothing is asked. -/
theorem Collected.freeLeaves {inner : Option String} {l : Lexeme} {kind : String} {named : Bool}
    {xs : List Trait} (hl : ∀ a ∈ l.asides, a.kind ∈ asideKinds) (hkind : isFreeKind kind = true)
    (hxs : ∀ x ∈ xs, x = .part ∨ named = true ∧ x ∈ Trait.ofKind kind) :
    Collected inner xs (l.leaves kind named) := by
  obtain ⟨token, hleaves, rfl, rfl, -⟩ := l.leaves_eq kind named
  obtain ⟨haside, hasked⟩ := not_aside_of_isFreeKind hkind
  have hleaf : Collected inner xs [.leaf none token] := by
    refine .leaf haside (Tree.isGood_leaf hasked) fun x hx => ?_
    rcases hxs x hx with rfl | ⟨hnamed, hx⟩
    · trivial
    · exact Trait.on_ofKind (t := .leaf none token) hnamed hx
  rw [hleaves]
  simpa using (Collected.asideLeaves hl).append hleaf

end AccessorScan
