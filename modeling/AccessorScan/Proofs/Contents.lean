import AccessorScan.Proofs.SourceTrees

/-!
# `Proofs.Contents` — what nodes have inside

The kinds of the trees that a rule leaves behind can be told from the rule, and so can whether it leaves
any but asides. The check follows a rule as a run does, with these contents in the place of trees. By it no
node of a source is empty, and the body of an interface holds neither fields nor the second part of an
enumeration.

## Contents
- `Tree.isFilled`: what is asked of all nodes.
- `Contents`, `Rule.contents`, `Rule.fills`: the check.
- `Contents.Of`: trees with these contents; `Rule.subset_of_reads`, `Rule.reads_of`.
- `Phrase.isFilling_all`, `syntaxTree_filled`: the grammar of the language passes.
-/

namespace AccessorScan

namespace Tree

/-- The kinds of the parts of an interface. -/
def interfaceParts : List String :=
  ["modifiers", "interface", "identifier", "type_parameters", "extends_interfaces", "permits",
    "interface_body"]

/-- The kinds of what only other types have in their bodies. -/
def foreignKinds : List String := ["field_declaration", "enum_body_declarations"]

/-- What is asked of what a node of this kind has inside. -/
def mayHold (kind inside : String) : Bool :=
  (kind != "interface_declaration" || interfaceParts.contains inside) &&
    (!interfaceParts.contains kind || !foreignKinds.contains inside)

/-- A node is no aside, and it has something inside besides asides, but nothing that it must not have. -/
def isFilled (t : Tree) : Bool :=
  t.isLeaf || !t.isAside && t.children.any (fun c => !c.isAside) &&
    t.children.all fun c => c.isAside || mayHold t.kind c.kind

/-- A node of a tree all of whose nodes are filled is not empty, and what it has inside is such a tree. -/
theorem inside_of_filled {role : Option Role} {kind : String} {cs : List Tree}
    (h : (node role kind cs).everywhere isFilled = true) :
    cs ≠ [] ∧ ∀ c ∈ cs, c.everywhere isFilled = true := by
  obtain ⟨hnode, hchildren⟩ := everywhere_iff.mp h
  refine ⟨?_, hchildren⟩
  rintro rfl
  simp [isFilled, isLeaf, children] at hnode

end Tree

/-! ## The check -/

/-- What may be known of trees: the kinds of those that are no asides, and whether there is one. -/
structure Contents where
  kinds : Option (List String)
  isFull : Bool
  deriving DecidableEq, Repr

namespace Contents

def nothing : Contents := ⟨some [], false⟩

/-- One tree; if its kind is not known, any. -/
def one (kind : Option String) : Contents := ⟨kind.map ([·]), true⟩

def allKinds (c d : Contents) : Option (List String) :=
  match c.kinds, d.kinds with
  | some xs, some ys => some (xs ++ ys)
  | _, _ => none

/-- What is known of trees and others behind them. -/
def add (c d : Contents) : Contents := ⟨c.allKinds d, c.isFull || d.isFull⟩

/-- What is known of trees that are one or the other. -/
def join (c d : Contents) : Contents := ⟨c.allKinds d, c.isFull && d.isFull⟩

/-- The kinds are known, and all of them are such. -/
def onlyKinds (c : Contents) (p : String → Bool) : Bool := c.kinds.any fun xs => xs.all p

/-- What is known by `d` is known by `c` as well. -/
def covers (c d : Contents) : Bool :=
  (c.kinds.all fun xs => d.onlyKinds xs.contains) && (!c.isFull || d.isFull)

/-- Nothing is asked of what a node of this kind has inside. -/
def isAnyHolder (kind : String) : Bool := !("interface_declaration" :: Tree.interfaceParts).contains kind

/-- A node of this kind may be made around trees with these contents. -/
def suit (kind : String) (c : Contents) : Bool :=
  !asideKinds.contains kind && c.isFull &&
    (isAnyHolder kind || c.onlyKinds (Tree.mayHold kind))

end Contents

/-- The kind of the leaf that the rule makes, if it is always the same. -/
def LexemeRule.leafKind? : LexemeRule → Option String
  | word kind _ => some kind
  | exact text => some text
  | named kind _ => some kind
  | literal => none
  | piece _ => some "string_fragment"

namespace Rule

variable {P : Type} (promised : P → Contents)

mutual

/-- The contents after the rule, from those before it and those that phrases promise. -/
def contents : Rule P → Contents → Contents
  | .phrase p, c => c.add (promised p)
  | .lexeme r, c => c.add (.one r.leafKind?)
  | .joined texts, c => c.add (.one (some (String.join texts)))
  | .finish, c => c
  | .all rs, c => contentsAll rs c
  | .any rs, c => contentsAny rs c
  | .many r, c => if c.covers (contents r c) then c else c.join (contents r c)
  | .role _ rule, c => c.add (contents rule .nothing)
  | .node kind _, c => c.add (.one (some kind))
  | .around kind _ _, _ => .one (some kind)
  | .next _ _, c => c
  | .after _, c => c

def contentsAll : List (Rule P) → Contents → Contents
  | [], c => c
  | r :: rs, c => contentsAll rs (contents r c)

/-- What is known of all alternatives. -/
def contentsAny : List (Rule P) → Contents → Contents
  | [], c => c
  | [r], c => contents r c
  | r :: rs, c => (contents r c).join (contentsAny rs c)

end

/-- The contents before each round of a repeated rule. -/
def settled (r : Rule P) (c : Contents) : Contents :=
  if c.covers (contents promised r c) then c else c.join (contents promised r c)

mutual

/-- The nodes that the rule makes after trees with these contents suit what they have inside. -/
def fills : Rule P → Contents → Bool
  | .phrase _, _ => true
  | .lexeme r, _ => r.leafKind?.all fun kind => !asideKinds.contains kind
  | .joined texts, _ => !asideKinds.contains (String.join texts)
  | .finish, _ => true
  | .all rs, c => fillsAll rs c
  | .any rs, c => fillsAny rs c
  | .many r, c =>
      fills r (settled promised r c) &&
        (settled promised r c).covers (contents promised r (settled promised r c))
  | .role _ rule, _ => fills rule .nothing
  | .node kind rule, _ => fills rule .nothing && (contents promised rule .nothing).suit kind
  | .around kind _ rule, c => fills rule c && (contents promised rule c).suit kind
  | .next _ _, _ => true
  | .after _, _ => true

def fillsAll : List (Rule P) → Contents → Bool
  | [], _ => true
  | r :: rs, c => fills r c && fillsAll rs (contents promised r c)

def fillsAny : List (Rule P) → Contents → Bool
  | [], _ => true
  | r :: rs, c => fills r c && fillsAny rs c

end

end Rule

/-! ## Trees with known contents -/

namespace Contents

/-- What is known of trees holds of them, and all nodes in them suit what they have inside. -/
structure Of (c : Contents) (ts : List Tree) : Prop where
  kinds : ∀ xs, c.kinds = some xs → ∀ t ∈ ts, t.isAside = false → t.kind ∈ xs
  full : c.isFull = true → ∃ t ∈ ts, t.isAside = false
  filled : ∀ t ∈ ts, t.everywhere Tree.isFilled = true

variable {c d : Contents} {as bs ts : List Tree} {kind : String}

theorem mayHold_of_isAnyHolder (h : isAnyHolder kind = true) (inside : String) :
    Tree.mayHold kind inside = true := by
  rw [isAnyHolder, Bool.not_eq_true', ← Bool.not_eq_true, List.contains_iff_mem, List.mem_cons, not_or]
    at h
  simp [Tree.mayHold, h.1, h.2]

theorem allKinds_eq_some {xs : List String} (h : c.allKinds d = some xs) :
    ∃ ys zs, c.kinds = some ys ∧ d.kinds = some zs ∧ xs = ys ++ zs := by
  unfold allKinds at h
  split at h
  next ys zs hc hd => exact ⟨ys, zs, hc, hd, (Option.some.inj h).symm⟩
  next => cases h

namespace Of

theorem nothing : Contents.nothing.Of [] := by
  constructor <;> simp [Contents.nothing]

theorem append (ha : c.Of as) (hb : d.Of bs) : (c.add d).Of (as ++ bs) where
  kinds := by
    intro xs hxs t ht haside
    obtain ⟨ys, zs, hc, hd, rfl⟩ := allKinds_eq_some hxs
    rcases List.mem_append.mp ht with ht | ht
    · exact List.mem_append_left zs (ha.kinds ys hc t ht haside)
    · exact List.mem_append_right ys (hb.kinds zs hd t ht haside)
  full := by
    intro h
    rcases Bool.or_eq_true_iff.mp h with h | h
    · obtain ⟨t, ht, haside⟩ := ha.full h
      exact ⟨t, List.mem_append_left bs ht, haside⟩
    · obtain ⟨t, ht, haside⟩ := hb.full h
      exact ⟨t, List.mem_append_right as ht, haside⟩
  filled := fun t ht => (List.mem_append.mp ht).elim (ha.filled t) (hb.filled t)

theorem join_left (h : c.Of ts) : (c.join d).Of ts where
  kinds := by
    intro xs hxs t ht haside
    obtain ⟨ys, zs, hc, -, rfl⟩ := allKinds_eq_some hxs
    exact List.mem_append_left zs (h.kinds ys hc t ht haside)
  full := fun hfull => h.full (Bool.and_eq_true_iff.mp hfull).1
  filled := h.filled

theorem join_right (h : d.Of ts) : (c.join d).Of ts where
  kinds := by
    intro xs hxs t ht haside
    obtain ⟨ys, zs, -, hd, rfl⟩ := allKinds_eq_some hxs
    exact List.mem_append_right ys (h.kinds zs hd t ht haside)
  full := fun hfull => h.full (Bool.and_eq_true_iff.mp hfull).2
  filled := h.filled

theorem of_covers (hcovers : c.covers d = true) (h : d.Of ts) : c.Of ts := by
  obtain ⟨hkinds, hfull⟩ := Bool.and_eq_true_iff.mp hcovers
  refine ⟨fun xs hxs t ht haside => ?_, fun hc => h.full ?_, h.filled⟩
  · rw [hxs] at hkinds
    obtain ⟨ys, hys, hall⟩ := Option.any_eq_true _ _ |>.mp hkinds
    exact List.contains_iff_mem.mp (List.all_eq_true.mp hall _ (h.kinds ys hys t ht haside))
  · simpa [hc] using hfull

/-- A node around trees that suit it. -/
theorem wrap (h : c.Of ts) (hsuit : c.suit kind = true) :
    (one (some kind)).Of (Tree.wrap kind ts) := by
  obtain ⟨hsuit, hholds⟩ := Bool.and_eq_true_iff.mp hsuit
  obtain ⟨hkind, hfull⟩ := Bool.and_eq_true_iff.mp hsuit
  have hdrop : ∀ t ∈ ts.dropWhile Tree.isAside, t ∈ ts := fun t ht =>
    (List.dropWhile_sublist Tree.isAside).mem ht
  have hinside : ∀ t ∈ ts, t.isAside = false → Tree.mayHold kind t.kind = true := by
    intro t ht haside
    rcases Bool.or_eq_true_iff.mp hholds with hany | honly
    · exact mayHold_of_isAnyHolder hany _
    · obtain ⟨xs, hxs, hall⟩ := Option.any_eq_true _ _ |>.mp honly
      exact List.all_eq_true.mp hall _ (h.kinds xs hxs t ht haside)
  have hnotAside : (Tree.node none kind (ts.dropWhile Tree.isAside)).isAside = false := by
    rw [← Bool.not_eq_true, Tree.isAside_iff]
    show kind ∉ asideKinds
    simpa using hkind
  have hnode : (Tree.node none kind (ts.dropWhile Tree.isAside)).everywhere Tree.isFilled = true := by
    refine Tree.everywhere_iff.mpr ⟨?_, fun t ht => h.filled t (hdrop t ht)⟩
    rw [Tree.isFilled, Bool.or_eq_true, Bool.and_eq_true, Bool.and_eq_true]
    refine .inr ⟨⟨?_, ?_⟩, List.all_eq_true.mpr fun t ht => ?_⟩
    · rw [Bool.not_eq_true', hnotAside]
    · obtain ⟨t, ht, haside⟩ := h.full hfull
      have hpart : Trait.part.In ts := ⟨t, ht, haside, trivial⟩
      obtain ⟨x, hx, hxaside, -⟩ := hpart.dropWhile
      exact List.any_eq_true.mpr ⟨x, hx, by simp [hxaside]⟩
    · cases haside : t.isAside with
      | true => rfl
      | false => exact hinside t (hdrop t ht) haside
  show (one (some kind)).Of (ts.takeWhile Tree.isAside ++ [Tree.node none kind _])
  constructor
  · intro xs hxs t ht haside
    obtain rfl := Option.some.inj hxs
    rcases List.mem_append.mp ht with ht | ht
    · -- the asides in front stay outside
      rw [List.mem_takeWhile_imp ht] at haside
      cases haside
    · obtain rfl := List.mem_singleton.mp ht
      exact List.mem_singleton_self kind
  · intro _
    exact ⟨_, List.mem_append_right _ (List.mem_singleton_self _), hnotAside⟩
  · intro t ht
    rcases List.mem_append.mp ht with ht | ht
    · exact h.filled t ((List.takeWhile_sublist Tree.isAside).mem ht)
    · obtain rfl := List.mem_singleton.mp ht
      exact hnode

/-- A role changes nothing. -/
theorem labelled (r : Role) (h : c.Of ts) : c.Of (labelled r ts) where
  kinds := by
    intro xs hxs t ht haside
    rcases mem_labelled.mp ht with ⟨ht, -⟩ | ⟨s, hs, hsaside, rfl⟩
    · exact h.kinds xs hxs t ht haside
    · rw [Tree.kind_withRole]
      exact h.kinds xs hxs s hs hsaside
  full := by
    intro hfull
    obtain ⟨t, ht, haside⟩ := h.full hfull
    exact ⟨t.withRole r, mem_labelled.mpr (.inr ⟨t, ht, haside, rfl⟩),
      by rw [Tree.isAside_withRole, haside]⟩
  filled := by
    intro t ht
    rcases mem_labelled.mp ht with ⟨ht, -⟩ | ⟨s, hs, -, rfl⟩
    · exact h.filled t ht
    · have hsame : (s.withRole r).everywhere Tree.isFilled = s.everywhere Tree.isFilled := by
        cases s <;> rfl
      rw [hsame]
      exact h.filled s hs

theorem asideLeaves {asides : List Aside} (h : ∀ a ∈ asides, a.kind ∈ asideKinds) :
    Contents.nothing.Of (asides.map Aside.leaf) where
  kinds := by
    intro xs _ t ht haside
    obtain ⟨a, ha, rfl⟩ := List.mem_map.mp ht
    have hkind : a.leaf.isAside = true := Tree.isAside_iff.mpr (h a ha)
    rw [haside] at hkind
    cases hkind
  full := nofun
  filled := by
    intro t ht
    obtain ⟨a, -, rfl⟩ := List.mem_map.mp ht
    rfl

/-- The leaves for a lexeme. -/
theorem leaves {l : Lexeme} {named : Bool} {kind? : Option String}
    (hl : ∀ a ∈ l.asides, a.kind ∈ asideKinds) (hkind : kind ∉ asideKinds)
    (hkind? : ∀ k, kind? = some k → k = kind) : (one kind?).Of (l.leaves kind named) := by
  obtain ⟨token, hleaves, rfl, -, -⟩ := l.leaves_eq kind named
  have hleaf : (one kind?).Of [.leaf none token] := by
    constructor
    · intro xs hxs t ht _
      obtain ⟨k, hk, rfl⟩ := Option.map_eq_some_iff.mp hxs
      obtain rfl := List.mem_singleton.mp ht
      exact List.mem_singleton.mpr (hkind? k hk).symm
    · intro _
      refine ⟨_, List.mem_singleton_self _, ?_⟩
      rw [← Bool.not_eq_true, Tree.isAside_iff]
      exact hkind
    · intro t ht
      obtain rfl := List.mem_singleton.mp ht
      rfl
  rw [hleaves]
  refine of_covers ?_ ((asideLeaves hl).append hleaf)
  cases kind? <;> simp [covers, onlyKinds, add, allKinds, Contents.nothing, one]

end Of

end Contents

/-! ## Readings -/

theorem Contents.covers_add_nothing (c : Contents) : c.covers (c.add .nothing) = true := by
  cases c with
  | mk kinds isFull => cases kinds <;> cases isFull <;> simp [covers, onlyKinds, add, allKinds, nothing]

/-- The leaf of a lexeme that fits is no aside, and it is of the kind that the rule tells. -/
theorem LexemeRule.leafKind?_eq {r : LexemeRule} {l : Lexeme} {kind : String} {named : Bool} (hl : l.Fits)
    (hr : (r.leafKind?.all fun kind => !asideKinds.contains kind) = true)
    (h : r.leaf? l = some (kind, named)) :
    kind ∉ asideKinds ∧ ∀ k, r.leafKind? = some k → k = kind := by
  cases r with
  | word k except =>
      obtain ⟨-, hleaf⟩ := Option.ite_none_right_eq_some.mp h
      obtain ⟨rfl, -⟩ := Prod.mk.inj (Option.some.inj hleaf)
      exact ⟨by simpa [leafKind?] using hr, fun _ hk => (Option.some.inj hk).symm⟩
  | exact text =>
      obtain ⟨-, hleaf⟩ := Option.ite_none_right_eq_some.mp h
      obtain ⟨rfl, -⟩ := Prod.mk.inj (Option.some.inj hleaf)
      exact ⟨by simpa [leafKind?] using hr, fun _ hk => (Option.some.inj hk).symm⟩
  | named k text =>
      obtain ⟨-, hleaf⟩ := Option.ite_none_right_eq_some.mp h
      obtain ⟨rfl, -⟩ := Prod.mk.inj (Option.some.inj hleaf)
      exact ⟨by simpa [leafKind?] using hr, fun _ hk => (Option.some.inj hk).symm⟩
  | literal =>
      simp only [leaf?] at h
      split at h
      next k hk =>
          obtain ⟨rfl, -⟩ := Prod.mk.inj (Option.some.inj h)
          exact ⟨(not_aside_of_isFreeKind (hl.literal k hk)).1, by simp [leafKind?]⟩
      next => cases h
  | piece k =>
      obtain ⟨-, hleaf⟩ := Option.ite_none_right_eq_some.mp h
      obtain ⟨rfl, -⟩ := Prod.mk.inj (Option.some.inj hleaf)
      exact ⟨by decide, fun _ hk => (Option.some.inj hk).symm⟩

namespace Rule

variable {P : Type} {g : P → Rule P} {promised : P → Contents}

/-- What is left after a reading stood there before. -/
theorem subset_of_reads {rule : Rule P} {trees ts : List Tree} {input rest : List Lexeme}
    (h : Reads g rule trees input ts rest) : rest ⊆ input := by
  induction h with
  | phrase _ ih => exact ih
  | lexeme h =>
      obtain ⟨l, _, _, rfl, -, -⟩ := readLexeme_eq_some h
      exact List.subset_cons_self l _
  | joined h =>
      obtain ⟨l, hl, -⟩ := readJoined_eq_some h
      exact fun x hx => (joined?_eq_some hl).2.2 x hx
  | finish h =>
      obtain ⟨l, rfl, -, -⟩ := readFinish_eq_some h
      exact List.subset_cons_self l _
  | allNil => exact List.Subset.refl _
  | allCons _ _ ihFirst ihRest => exact List.Subset.trans ihRest ihFirst
  | any _ _ ih => exact ih
  | manyNil => exact List.Subset.refl _
  | manyCons _ _ ihFirst ihRest => exact List.Subset.trans ihRest ihFirst
  | role _ ih => exact ih
  | node _ ih => exact ih
  | around _ ih => exact ih
  | next _ => exact List.Subset.refl _
  | after _ => exact List.Subset.refl _

theorem of_contentsAny {r : Rule P} {rs : List (Rule P)} {c : Contents} {ts : List Tree} (hr : r ∈ rs)
    (h : (contents promised r c).Of ts) : (contentsAny promised rs c).Of ts := by
  induction rs with
  | nil => cases hr
  | cons s rs ih =>
      cases rs with
      | nil =>
          obtain rfl := List.mem_singleton.mp hr
          exact h
      | cons u us =>
          rw [contentsAny]
          · rcases List.mem_cons.mp hr with rfl | hr
            · exact h.join_left
            · exact (ih hr).join_right
          · exact nofun

theorem fills_of_mem {r : Rule P} {rs : List (Rule P)} {c : Contents} (hr : r ∈ rs)
    (h : fillsAny promised rs c = true) : fills promised r c = true := by
  induction rs with
  | nil => cases hr
  | cons s rs ih =>
      obtain ⟨hs, hrest⟩ := Bool.and_eq_true_iff.mp h
      rcases List.mem_cons.mp hr with rfl | hr
      · exact hs
      · exact ih hr hrest

/-- Nothing changes any more after one round. -/
theorem settled_settled {r : Rule P} {c : Contents}
    (h : (settled promised r c).covers (contents promised r (settled promised r c)) = true) :
    settled promised r (settled promised r c) = settled promised r c :=
  if_pos h

theorem of_settled {r : Rule P} {c : Contents} {ts : List Tree} (h : c.Of ts) :
    (settled promised r c).Of ts := by
  unfold settled
  split
  · exact h
  · exact h.join_left

/-- **Nodes suit what they have inside.** What a rule reads after trees with some contents has the contents
    that the check tells. -/
theorem reads_of
    (hg : ∀ p, fills promised (g p) .nothing = true ∧
      (promised p).covers (contents promised (g p) .nothing) = true)
    {rule : Rule P} {trees ts : List Tree} {input rest : List Lexeme}
    (h : Reads g rule trees input ts rest) :
    ∀ {c : Contents}, fills promised rule c = true → c.Of trees → (∀ l ∈ input, l.Fits) →
      (contents promised rule c).Of ts := by
  induction h with
  | @phrase p trees ts input rest _ ih =>
      intro c _ hc hinput
      exact hc.append (.of_covers (hg p).2 (ih (hg p).1 .nothing hinput))
  | lexeme h =>
      intro c hfills hc hinput
      obtain ⟨l, kind, named, rfl, hleaf, rfl⟩ := readLexeme_eq_some h
      have hl := hinput l List.mem_cons_self
      obtain ⟨hkind, hsame⟩ := LexemeRule.leafKind?_eq hl hfills hleaf
      exact hc.append (.leaves hl.asides hkind hsame)
  | joined h =>
      intro c hfills hc hinput
      obtain ⟨l, hl, rfl⟩ := readJoined_eq_some h
      obtain ⟨htext, ⟨first, hfirst, hasides⟩, -⟩ := joined?_eq_some hl
      refine hc.append (.leaves ?_ ?_ fun k hk => ?_)
      · rw [hasides]
        exact (hinput first hfirst).asides
      · rw [htext]
        simpa [fills] using hfills
      · rw [htext]
        exact (Option.some.inj hk).symm
  | finish h =>
      intro c _ hc hinput
      obtain ⟨l, rfl, -, rfl⟩ := readFinish_eq_some h
      have hall := hc.append (.asideLeaves (hinput l List.mem_cons_self).asides)
      exact .of_covers (Contents.covers_add_nothing c) hall
  | allNil =>
      intro c _ hc _
      exact hc
  | allCons hfirst _ ihFirst ihRest =>
      intro c hfills hc hinput
      obtain ⟨hr, hrs⟩ := Bool.and_eq_true_iff.mp hfills
      exact ihRest hrs (ihFirst hr hc hinput) fun l hl => hinput l (subset_of_reads hfirst hl)
  | any hr _ ih =>
      intro c hfills hc hinput
      exact of_contentsAny hr (ih (fills_of_mem hr hfills) hc hinput)
  | manyNil =>
      intro c _ hc _
      exact of_settled hc
  | @manyCons r trees mid ts input between rest hfirst _ ihFirst ihRest =>
      intro c hfills hc hinput
      obtain ⟨hround, hcovers⟩ := Bool.and_eq_true_iff.mp hfills
      -- every round starts from the settled contents and comes back to them
      have hmid : (settled promised r c).Of mid := .of_covers hcovers (ihFirst hround (of_settled hc) hinput)
      have hagain : fills promised (.many r) (settled promised r c) = true := by
        rw [fills, settled_settled hcovers]
        exact hfills
      have hresult := ihRest hagain hmid fun l hl => hinput l (subset_of_reads hfirst hl)
      rw [contents, ← settled, settled_settled hcovers] at hresult
      exact hresult
  | role _ ih =>
      intro c hfills hc hinput
      exact hc.append ((ih hfills .nothing hinput).labelled _)
  | node _ ih =>
      intro c hfills hc hinput
      obtain ⟨hrule, hsuit⟩ := Bool.and_eq_true_iff.mp hfills
      exact hc.append ((ih hrule .nothing hinput).wrap hsuit)
  | @around kind r? rule trees ts input rest _ ih =>
      intro c hfills hc hinput
      obtain ⟨hrule, hsuit⟩ := Bool.and_eq_true_iff.mp hfills
      have htaken : c.Of (taken r? trees) := by
        cases r? with
        | none => exact hc
        | some r => exact hc.labelled r
      exact (ih hrule htaken hinput).wrap hsuit
  | next _ =>
      intro c _ hc _
      exact hc
  | after _ =>
      intro c _ hc _
      exact hc

end Rule

/-! ## The grammar passes -/

namespace Phrase

/-- The kinds that are promised of what a phrase makes. -/
def promisedKinds : Phrase → Option (List String)
  | .annotationUse => some ["annotation", "marker_annotation"]
  | .modifiers => some ["modifiers"]
  | .typeParameters => some ["type_parameters"]
  | .interfaceBody => some ["interface_body"]
  | .interfaceMember => some [";", "class_declaration", "interface_declaration", "enum_declaration",
      "record_declaration", "annotation_type_declaration", "method_declaration", "constant_declaration"]
  | _ => none

/-- Every phrase but the whole program makes something. -/
def promisedContents (p : Phrase) : Contents := ⟨p.promisedKinds, p != .program⟩

def isFilling (p : Phrase) : Bool :=
  Rule.fills promisedContents (grammar p) .nothing &&
    p.promisedContents.covers (Rule.contents promisedContents (grammar p) .nothing)

theorem isFilling_expression (floor : Nat) (function : Bool) :
    (Phrase.expression floor function).isFilling = true := by
  have hbounded : ∀ n ≤ Grammar.unaryRank, ∀ f : Bool, (Phrase.expression n f).isFilling = true := by
    decide +kernel
  have hmin := hbounded (min floor Grammar.unaryRank) (Nat.min_le_right _ _) function
  rw [isFilling, grammar] at hmin ⊢
  rw [expression_min]
  exact hmin

theorem isFilling_all (p : Phrase) : p.isFilling = true := by
  cases p with
  | expression floor function => exact isFilling_expression floor function
  | type site => cases site <;> decide +kernel
  | annotatedType site => cases site <;> decide +kernel
  | elementType site => cases site <;> decide +kernel
  | localVariable site => cases site <;> decide +kernel
  | formalParameters site => cases site <;> decide +kernel
  | formalParameter site => cases site <;> decide +kernel
  | receiver site => cases site <;> decide +kernel
  | methodDeclaration site => cases site <;> decide +kernel
  | cast function => cases function <;> decide +kernel
  | declarators except => rfl
  | _ => decide +kernel

end Phrase

/-! ## Trees of sources -/

theorem readProgram_filled {ls rest : List Lexeme} {ts : List Tree} (hls : ∀ l ∈ ls, l.Fits)
    (h : (readProgram ls).found? = some (ts, rest)) :
    ∀ t ∈ ts, t.everywhere Tree.isFilled = true := by
  have hgrammar : ∀ p, Rule.fills Phrase.promisedContents (grammar p) .nothing = true ∧
      p.promisedContents.covers (Rule.contents Phrase.promisedContents (grammar p) .nothing) = true :=
    fun p => Bool.and_eq_true_iff.mp p.isFilling_all
  rw [readProgram] at h
  exact (Rule.reads_of hgrammar (Rule.reads_of_run h) rfl .nothing hls).filled

/-- **Trees of sources.** All nodes in the tree of a source, broken or not, suit what they have inside. Only
    the program itself may be empty. -/
theorem syntaxTree_filled (source : String) :
    ∀ t ∈ (syntaxTree source).children, t.everywhere Tree.isFilled = true := by
  have haside : ∀ text : String, ∀ t ∈ [(Aside.mk "" Tree.skippedKind text 1).leaf],
      t.everywhere Tree.isFilled = true := by
    intro text t ht
    obtain rfl := List.mem_singleton.mp ht
    rfl
  obtain ⟨ts, hts, h⟩ := syntaxTree_read readProgram_filled haside source
  rw [hts]
  exact h

end AccessorScan
