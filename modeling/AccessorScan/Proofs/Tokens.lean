import AccessorScan.Proofs.GrammarCheck

/-!
# `Proofs.Tokens` — the leaves of a tree and the lexemes that they spell

A reading puts every lexeme into the tree, in the order of the source: as one leaf behind the leaves for what
stands before it, or, where several lexemes are taken for one, as a part of a leaf. So nothing of the source is
lost, and a leaf is on the line that the lexemes before it lead to. What a repair left behind is not lost
either: it shows in the leaves.

## Contents
- `Tree.tokens`, `spelled`, `LinedFrom`: the leaves of a tree, their text, and their lines.
- `Spells`: the leaves that spell some lexemes; `Spells.spelled_eq`, `Spells.linedFrom`, `Spells.broken`.
- `Rule.keepsWhole`, `Phrase.keepsWhole_all`: no part of a joined lexeme was supplied.
- `Rule.spells_of_reads`: a reading spells the lexemes that it reads.
-/

namespace AccessorScan

/-! ## Leaves -/

namespace Tree

mutual

/-- What the leaves of a tree hold, from left to right. -/
def tokens : Tree → List Token
  | leaf _ t => [t]
  | node _ _ cs => tokensAll cs

def tokensAll : List Tree → List Token
  | [] => []
  | t :: ts => t.tokens ++ tokensAll ts

end

theorem tokensAll_append (as bs : List Tree) : tokensAll (as ++ bs) = tokensAll as ++ tokensAll bs := by
  induction as with
  | nil => rfl
  | cons a as ih => rw [List.cons_append, tokensAll, ih, tokensAll, List.append_assoc]

@[simp] theorem tokens_withRole (r : Role) (t : Tree) : (t.withRole r).tokens = t.tokens := by
  cases t <;> rfl

@[simp] theorem tokensAll_labelled (r : Role) (ts : List Tree) :
    tokensAll (labelled r ts) = tokensAll ts := by
  induction ts with
  | nil => rfl
  | cons t ts ih =>
      rw [labelled, List.map_cons, tokensAll, tokensAll, ← labelled, ih]
      split
      · rfl
      · rw [tokens_withRole]

@[simp] theorem tokensAll_wrap (kind : String) (ts : List Tree) :
    tokensAll (wrap kind ts) = tokensAll ts := by
  show tokensAll (ts.takeWhile isAside ++ [node none kind (ts.dropWhile isAside)]) = _
  rw [tokensAll_append, tokensAll, tokensAll, List.append_nil, tokens, ← tokensAll_append,
    List.takeWhile_append_dropWhile]

end Tree

/-- The source that leaves cover, with the blanks before them. -/
def spelled : List Token → String
  | [] => ""
  | t :: ts => t.blank ++ t.text ++ spelled ts

/-- How many lines a text goes on. -/
def breaks (text : String) : Nat := lineBreaks text.toList

/-- The leaves are on the lines that their texts lead to, from the line `n`. -/
def LinedFrom (n : Nat) : List Token → Prop
  | [] => True
  | t :: ts => t.line = n + breaks t.blank ∧ LinedFrom (n + breaks (t.blank ++ t.text)) ts

theorem breaks_append (s t : String) : breaks (s ++ t) = breaks s + breaks t := by
  rw [breaks, String.toList_append]
  exact List.count_append

theorem spelled_append (as bs : List Token) : spelled (as ++ bs) = spelled as ++ spelled bs := by
  induction as with
  | nil => rw [List.nil_append, spelled, String.empty_append]
  | cons a as ih => simp only [List.cons_append, spelled, ih, String.append_assoc]

theorem linedFrom_append {n : Nat} {as bs : List Token} :
    LinedFrom n (as ++ bs) ↔ LinedFrom n as ∧ LinedFrom (n + breaks (spelled as)) bs := by
  induction as generalizing n with
  | nil => simp [LinedFrom, spelled, breaks, lineBreaks]
  | cons a as ih =>
      rw [List.cons_append, LinedFrom, LinedFrom, ih, spelled, breaks_append _ (spelled as), Nat.add_assoc,
        and_assoc]

namespace Tree

mutual

theorem covered_eq : ∀ t : Tree, t.covered = spelled t.tokens
  | leaf _ t => by rw [covered, tokens, spelled, spelled, String.append_empty]
  | node _ _ cs => by rw [covered, tokens, coveredAll_eq cs]

theorem coveredAll_eq : ∀ ts : List Tree, coveredAll ts = spelled (tokensAll ts)
  | [] => rfl
  | t :: ts => by rw [coveredAll, tokensAll, spelled_append, covered_eq t, coveredAll_eq ts]

end

end Tree

/-- The leaf shows that a part of the source was supplied or passed over. -/
def Token.IsBroken (t : Token) : Prop := t.isMissing = true ∨ t.kind = Tree.skippedKind

namespace Tree

mutual

theorem isBroken_iff : ∀ {t : Tree}, t.isBroken = true ↔ ∃ x ∈ t.tokens, x.IsBroken
  | leaf _ t => by simp [isBroken, tokens, Token.IsBroken]
  | node _ _ cs => by rw [isBroken, tokens, anyBroken_iff]

theorem anyBroken_iff : ∀ {ts : List Tree}, anyBroken ts = true ↔ ∃ x ∈ tokensAll ts, x.IsBroken
  | [] => by simp [anyBroken, tokensAll]
  | t :: ts => by
      rw [anyBroken, tokensAll, Bool.or_eq_true, isBroken_iff, anyBroken_iff]
      simp only [List.mem_append, or_and_right, exists_or]

end

end Tree

/-! ## Leaves of lexemes -/

/-- What the leaf for an aside holds. -/
def Aside.token (a : Aside) : Token := ⟨a.kind, true, false, a.blank, a.text, a.line⟩

/-- What the leaf of a lexeme holds that is read as a leaf of this kind. -/
def Lexeme.token (l : Lexeme) (kind : String) (named : Bool) : Token :=
  ⟨kind, named, l.kind == .supplied, l.blank, if l.kind == .supplied then "" else l.text, l.line⟩

theorem Tree.tokensAll_asideLeaves (asides : List Aside) :
    tokensAll (asides.map Aside.leaf) = asides.map Aside.token := by
  induction asides with
  | nil => rfl
  | cons a asides ih =>
      rw [List.map_cons, tokensAll, ih]
      rfl

theorem Tree.tokensAll_leaves (l : Lexeme) (kind : String) (named : Bool) :
    tokensAll (l.leaves kind named) = l.asides.map Aside.token ++ [l.token kind named] := by
  rw [Lexeme.leaves, tokensAll_append, tokensAll_asideLeaves]
  rfl

/-- A repair supplied the lexeme, or passed over what stood before it. -/
def Lexeme.IsMarked (l : Lexeme) : Prop :=
  l.kind = .supplied ∨ ∃ a ∈ l.asides, a.kind = Tree.skippedKind

/-- The leaves that lexemes have if each is read alone, where the kinds of leaves do not matter. -/
def plainTokens (ls : List Lexeme) : List Token :=
  ls.flatMap fun l => l.asides.map Aside.token ++ [l.token "" false]

theorem plainTokens_append (as bs : List Lexeme) :
    plainTokens (as ++ bs) = plainTokens as ++ plainTokens bs := List.flatMap_append

theorem plainTokens_cons (l : Lexeme) (ls : List Lexeme) :
    plainTokens (l :: ls) = l.asides.map Aside.token ++ ([l.token "" false] ++ plainTokens ls) := by
  rw [plainTokens, List.flatMap_cons, List.append_assoc]
  rfl

/-- These leaves are what a reading makes of these lexemes. -/
inductive Spells : List Lexeme → List Token → Prop where
  | nil : Spells [] []
  | single {l : Lexeme} (kind : String) (named : Bool) :
      Spells [l] (l.asides.map Aside.token ++ [l.token kind named])
  /-- The end of the source leaves only what stands before it. -/
  | finish {l : Lexeme} (h : l.kind = .finish) : Spells [l] (l.asides.map Aside.token)
  /-- Several lexemes, each at once after the one before, are taken for one. -/
  | joined {l : Lexeme} {more : List Lexeme} (kind : String) (named : Bool)
      (hsupplied : ∀ x ∈ l :: more, x.kind ≠ .supplied) (hglued : ∀ x ∈ more, x.isGlued = true) :
      Spells (l :: more) (l.asides.map Aside.token ++
        [⟨kind, named, false, l.blank, l.text ++ String.join (more.map Lexeme.text), l.line⟩])
  | append {as bs : List Lexeme} {xs ys : List Token} (ha : Spells as xs) (hb : Spells bs ys) :
      Spells (as ++ bs) (xs ++ ys)

/-- The lexeme stands in the source, and it is not its end. -/
def Lexeme.IsWritten (l : Lexeme) : Prop := l.kind ≠ .supplied ∧ l.kind ≠ .finish

theorem Lexeme.isGlued_iff {l : Lexeme} : l.isGlued = true ↔ l.asides = [] ∧ l.blank = "" := by
  rw [isGlued, Bool.and_eq_true, List.isEmpty_iff, String.isEmpty_iff]

theorem Lexeme.token_text {l : Lexeme} (h : l.kind ≠ .supplied) (kind : String) (named : Bool) :
    (l.token kind named).text = l.text := by
  simp [token, h]

/-- Lexemes that are glued together are spelled by their texts. -/
theorem spelled_plainTokens_glued {ls : List Lexeme} (hglued : ∀ x ∈ ls, x.isGlued = true)
    (hsupplied : ∀ x ∈ ls, x.kind ≠ .supplied) :
    spelled (plainTokens ls) = String.join (ls.map Lexeme.text) := by
  induction ls with
  | nil => rfl
  | cons l ls ih =>
      have hrest := ih (fun x hx => hglued x (List.mem_cons_of_mem l hx))
        fun x hx => hsupplied x (List.mem_cons_of_mem l hx)
      obtain ⟨hasides, hblank⟩ := Lexeme.isGlued_iff.mp (hglued l List.mem_cons_self)
      have htext := Lexeme.token_text (hsupplied l List.mem_cons_self) "" false
      have htokenBlank : (l.token "" false).blank = "" := hblank
      rw [plainTokens_cons, hasides, spelled_append, spelled_append, hrest]
      simp [spelled, htext, htokenBlank]

namespace Spells

variable {ls : List Lexeme} {ts : List Token}

/-- What is written is spelled. -/
theorem spelled_eq (h : Spells ls ts) (hls : ∀ l ∈ ls, l.IsWritten) :
    spelled ts = spelled (plainTokens ls) := by
  induction h with
  | nil => rfl
  | @single l kind named =>
      rw [plainTokens_cons, spelled_append, spelled_append]
      rfl
  | finish h => exact absurd h (hls _ List.mem_cons_self).2
  | @joined l more kind named hsupplied hglued =>
      have hmore := spelled_plainTokens_glued hglued fun x hx => hsupplied x (List.mem_cons_of_mem l hx)
      have htext := Lexeme.token_text (hsupplied l List.mem_cons_self) "" false
      rw [plainTokens_cons, spelled_append, spelled_append, spelled_append, hmore]
      simp only [spelled, htext, String.append_empty]
      simp only [Lexeme.token, String.append_assoc]
  | append _ _ iha ihb =>
      rw [plainTokens_append, spelled_append, spelled_append,
        iha fun l hl => hls l (List.mem_append_left _ hl), ihb fun l hl => hls l (List.mem_append_right _ hl)]

/-- The leaves are on the lines of the lexemes. -/
theorem linedFrom (h : Spells ls ts) (hls : ∀ l ∈ ls, l.IsWritten) :
    ∀ {n : Nat}, LinedFrom n (plainTokens ls) → LinedFrom n ts := by
  induction h with
  | nil => exact fun h => h
  | @single l kind named =>
      intro n h
      rw [plainTokens_cons, linedFrom_append] at h
      exact linedFrom_append.mpr h
  | finish h => exact absurd h (hls _ List.mem_cons_self).2
  | @joined l more kind named hsupplied hglued =>
      intro n h
      rw [plainTokens_cons, linedFrom_append] at h
      exact linedFrom_append.mpr ⟨h.1, h.2.1, trivial⟩
  | append ha _ iha ihb =>
      intro n h
      have hfirst := fun l hl => hls l (List.mem_append_left _ hl)
      rw [plainTokens_append, linedFrom_append] at h
      refine linedFrom_append.mpr ⟨iha hfirst h.1, ?_⟩
      rw [ha.spelled_eq hfirst]
      exact ihb (fun l hl => hls l (List.mem_append_right _ hl)) h.2

/-- What a repair left behind shows. -/
theorem broken (h : Spells ls ts) (hmarked : ∃ l ∈ ls, l.IsMarked) : ∃ t ∈ ts, t.IsBroken := by
  have hasides : ∀ {l : Lexeme}, (∃ a ∈ l.asides, a.kind = Tree.skippedKind) →
      ∃ t ∈ l.asides.map Aside.token, t.IsBroken := by
    rintro l ⟨a, ha, hkind⟩
    exact ⟨a.token, List.mem_map_of_mem ha, .inr hkind⟩
  obtain ⟨l, hl, hmark⟩ := hmarked
  induction h with
  | nil => cases hl
  | @single l' kind named =>
      obtain rfl := List.mem_singleton.mp hl
      rcases hmark with hsupplied | hskipped
      · refine ⟨_, List.mem_append_right _ (List.mem_singleton_self _), .inl ?_⟩
        simp [Lexeme.token, hsupplied]
      · obtain ⟨t, ht, hbroken⟩ := hasides hskipped
        exact ⟨t, List.mem_append_left _ ht, hbroken⟩
  | finish h =>
      obtain rfl := List.mem_singleton.mp hl
      rcases hmark with hsupplied | hskipped
      · rw [h] at hsupplied
        cases hsupplied
      · exact hasides hskipped
  | @joined l' more kind named hsupplied hglued =>
      rcases hmark with hmark | hskipped
      · exact absurd hmark (hsupplied l hl)
      · rcases List.mem_cons.mp hl with rfl | hl
        · obtain ⟨t, ht, hbroken⟩ := hasides hskipped
          exact ⟨t, List.mem_append_left _ ht, hbroken⟩
        · -- nothing stands before a lexeme that is glued to another
          obtain ⟨a, ha, -⟩ := hskipped
          rw [(Lexeme.isGlued_iff.mp (hglued l hl)).1] at ha
          cases ha
  | append _ _ iha ihb =>
      rcases List.mem_append.mp hl with hl | hl
      · obtain ⟨t, ht, hbroken⟩ := iha hl
        exact ⟨t, List.mem_append_left _ ht, hbroken⟩
      · obtain ⟨t, ht, hbroken⟩ := ihb hl
        exact ⟨t, List.mem_append_right _ ht, hbroken⟩

end Spells

/-! ## Readings -/

namespace Rule

variable {P : Type}

mutual

/-- No lexeme that the rule takes together with others can be one that a repair supplied. -/
def keepsWhole : Rule P → Bool
  | .phrase _ => true
  | .lexeme _ => true
  | .joined texts => texts.all fun t => !suppliedMarks.contains t
  | .finish => true
  | .all rs => keepsAllWhole rs
  | .any rs => keepsAllWhole rs
  | .many r => keepsWhole r
  | .role _ rule => keepsWhole rule
  | .node _ rule => keepsWhole rule
  | .around _ _ rule => keepsWhole rule
  | .next _ _ => true
  | .after _ => true

def keepsAllWhole : List (Rule P) → Bool
  | [] => true
  | r :: rs => keepsWhole r && keepsAllWhole rs

end

theorem keepsWhole_of_mem {r : Rule P} {rs : List (Rule P)} (hr : r ∈ rs)
    (h : keepsAllWhole rs = true) : r.keepsWhole = true := by
  induction rs with
  | nil => cases hr
  | cons s rs ih =>
      obtain ⟨hs, hrest⟩ := Bool.and_eq_true_iff.mp h
      rcases List.mem_cons.mp hr with rfl | hr
      · exact hs
      · exact ih hr hrest

/-- The trees of a reading are those before it and others that spell what it reads. -/
def Spelled (trees : List Tree) (input : List Lexeme) (ts : List Tree) (rest : List Lexeme) : Prop :=
  ∃ used added, input = used ++ rest ∧ Tree.tokensAll ts = Tree.tokensAll trees ++ added ∧
    Spells used added

theorem Spelled.refl (trees : List Tree) (input : List Lexeme) : Spelled trees input trees input :=
  ⟨[], [], rfl, (List.append_nil _).symm, .nil⟩

theorem Spelled.trans {trees mid ts : List Tree} {input between rest : List Lexeme}
    (hfirst : Spelled trees input mid between) (hrest : Spelled mid between ts rest) :
    Spelled trees input ts rest := by
  obtain ⟨used, added, rfl, hmid, hused⟩ := hfirst
  obtain ⟨later, more, rfl, hts, hlater⟩ := hrest
  exact ⟨used ++ later, added ++ more, (List.append_assoc ..).symm,
    by rw [hts, hmid, List.append_assoc], hused.append hlater⟩

/-- What is read on its own may stand behind other trees. -/
theorem Spelled.behind {ts inner : List Tree} {input rest : List Lexeme} (trees : List Tree)
    (h : Spelled [] input inner rest) (hts : Tree.tokensAll ts = Tree.tokensAll inner) :
    Spelled trees input (trees ++ ts) rest := by
  obtain ⟨used, added, rfl, hinner, hused⟩ := h
  exact ⟨used, added, rfl, by rw [Tree.tokensAll_append, hts, hinner, Tree.tokensAll, List.nil_append], hused⟩

theorem Spelled.mem_of_mem {trees ts : List Tree} {input rest : List Lexeme}
    (h : Spelled trees input ts rest) : ∀ l ∈ rest, l ∈ input := by
  obtain ⟨used, added, rfl, -, -⟩ := h
  exact fun l hl => List.mem_append_right used hl

/-- **A reading spells what it reads.** The lexemes that are gone from the input are those that the new leaves
    spell. -/
theorem spells_of_reads {g : P → Rule P} (hg : ∀ p, (g p).keepsWhole = true) {rule : Rule P}
    {trees ts : List Tree} {input rest : List Lexeme} (h : Reads g rule trees input ts rest) :
    rule.keepsWhole = true → (∀ l ∈ input, l.Fits) → Spelled trees input ts rest := by
  induction h with
  | @phrase p trees ts input rest _ ih => exact fun _ hinput => (ih (hg p) hinput).behind trees rfl
  | lexeme h =>
      intro _ _
      obtain ⟨l, kind, named, rfl, -, rfl⟩ := readLexeme_eq_some h
      exact ⟨[l], _, rfl, by rw [Tree.tokensAll_append, Tree.tokensAll_leaves], .single kind named⟩
  | joined h =>
      intro hwhole hinput
      obtain ⟨m, hm, rfl⟩ := readJoined_eq_some h
      obtain ⟨l, more, rfl, rfl, hglued, rfl⟩ := joined?_eq_append hm
      have hsupplied : ∀ x ∈ l :: more, x.kind ≠ .supplied := by
        intro x hx hkind
        have hmark := (hinput x (List.mem_append_left _ hx)).supplied hkind
        have hnone := List.all_eq_true.mp hwhole x.text (List.mem_map_of_mem hx)
        simp [hmark] at hnone
      have hspells := Spells.joined (l.text ++ String.join (more.map Lexeme.text)) false hsupplied hglued
      refine ⟨l :: more, _, rfl, ?_, hspells⟩
      rw [Tree.tokensAll_append, Tree.tokensAll_leaves]
      simp [Lexeme.token, hsupplied l List.mem_cons_self]
  | finish h =>
      intro _ _
      obtain ⟨l, rfl, hkind, rfl⟩ := readFinish_eq_some h
      exact ⟨[l], _, rfl, by rw [Tree.tokensAll_append, Tree.tokensAll_asideLeaves], .finish hkind⟩
  | allNil => exact fun _ _ => .refl _ _
  | allCons _ _ ihFirst ihRest =>
      intro hwhole hinput
      obtain ⟨hr, hrs⟩ := Bool.and_eq_true_iff.mp hwhole
      have hfirst := ihFirst hr hinput
      exact hfirst.trans (ihRest hrs fun l hl => hinput l (hfirst.mem_of_mem l hl))
  | any hr _ ih => exact fun hwhole => ih (keepsWhole_of_mem hr hwhole)
  | manyNil => exact fun _ _ => .refl _ _
  | manyCons _ _ ihFirst ihRest =>
      intro hwhole hinput
      have hfirst := ihFirst hwhole hinput
      exact hfirst.trans (ihRest hwhole fun l hl => hinput l (hfirst.mem_of_mem l hl))
  | @role r rule trees ts input rest _ ih =>
      exact fun hwhole hinput => (ih hwhole hinput).behind trees (Tree.tokensAll_labelled r ts)
  | @node kind rule trees ts input rest _ ih =>
      exact fun hwhole hinput => (ih hwhole hinput).behind trees (Tree.tokensAll_wrap kind ts)
  | @around kind r? rule trees ts input rest _ ih =>
      intro hwhole hinput
      obtain ⟨used, added, rfl, hts, hused⟩ := ih hwhole hinput
      have htaken : Tree.tokensAll (taken r? trees) = Tree.tokensAll trees := by
        cases r? with
        | none => rfl
        | some r => exact Tree.tokensAll_labelled r trees
      exact ⟨used, added, rfl, by rw [Tree.tokensAll_wrap, hts, htaken], hused⟩
  | next _ => exact fun _ _ => .refl _ _
  | after _ => exact fun _ _ => .refl _ _

end Rule

/-! ## The grammar keeps lexemes whole -/

namespace Phrase

theorem keepsWhole_expression (floor : Nat) (function : Bool) :
    (Grammar.expression floor function).keepsWhole = true := by
  have hbounded : ∀ n ≤ Grammar.unaryRank, ∀ f : Bool, (Grammar.expression n f).keepsWhole = true := by
    decide +kernel
  rw [expression_min]
  exact hbounded _ (Nat.min_le_right _ _) function

theorem keepsWhole_all (p : Phrase) : (grammar p).keepsWhole = true := by
  cases p with
  | expression floor function => exact keepsWhole_expression floor function
  | cast function => cases function <;> rfl
  | _ => rfl

end Phrase

end AccessorScan
