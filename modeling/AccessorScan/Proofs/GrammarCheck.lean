import AccessorScan.Proofs.Traits

/-!
# `Proofs.GrammarCheck` — the grammar makes only trees that fit

The check of a grammar is sound: by induction on readings, what a checked rule reads after trees that
fit is again trees that fit, with the traits that the check tells. The rules of the language pass it.

## Contents
- `Collected.lexemeLeaves`, `joined?_eq_some`: what becomes of single lexemes.
- `Rule.fitsRole_of_mayGet`: what a rule makes fits in the roles that it may get.
- `Rule.reads_collected`: a grammar that passes the check makes only trees that fit.
- `Phrase.promised`, `Phrase.isChecked_all`: the grammar of the language passes.
-/

namespace AccessorScan

/-! ## Lexemes -/

theorem Tree.isGood_leaf_congr {a b : Token} (hkind : a.kind = b.kind) (htext : a.text = b.text) :
    (Tree.leaf none a).isGood = (Tree.leaf none b).isGood := by
  have hfits : (Tree.leaf none a).fitsKind = (Tree.leaf none b).fitsKind := by
    unfold fitsKind
    rw [kind, kind, hkind, text, text, htext]
    rfl
  have hwords : (Tree.leaf none a).fitsWords = (Tree.leaf none b).fitsWords := by
    unfold fitsWords
    rw [kind, kind, hkind]
    rfl
  have hdeclaration : (Tree.leaf none a).fitsDeclaration = (Tree.leaf none b).fitsDeclaration := by
    unfold fitsDeclaration
    rw [kind, kind, hkind]
    rfl
  rw [isGood, isGood, hfits, hwords, hdeclaration, plainNames, plainNames, kind, kind, hkind]
  rfl

/-- What a rule makes of one lexeme that fits. -/
theorem Collected.lexemeLeaves {inner : Option String} {r : LexemeRule} {l : Lexeme} {kind : String}
    {named : Bool} (hl : l.Fits) (hr : r.fits = true) (h : r.leaf? l = some (kind, named)) :
    Collected inner r.traits (l.leaves kind named) := by
  cases r with
  | word k except =>
      obtain ⟨-, hleaf⟩ := Option.ite_none_right_eq_some.mp h
      obtain ⟨rfl, rfl⟩ := Prod.mk.inj (Option.some.inj hleaf)
      exact .freeLeaves hl.asides hr fun x hx => .inr ⟨rfl, hx⟩
  | exact text =>
      obtain ⟨-, hleaf⟩ := Option.ite_none_right_eq_some.mp h
      obtain ⟨rfl, rfl⟩ := Prod.mk.inj (Option.some.inj hleaf)
      exact .freeLeaves hl.asides hr fun x hx => .inl (List.mem_singleton.mp hx)
  | named k text =>
      obtain ⟨htext, hleaf⟩ := Option.ite_none_right_eq_some.mp h
      obtain ⟨rfl, rfl⟩ := Prod.mk.inj (Option.some.inj hleaf)
      obtain ⟨hr, hfits⟩ := Bool.and_eq_true_iff.mp hr
      obtain ⟨haside, hmark⟩ := Bool.and_eq_true_iff.mp hr
      -- a supplied mark has no text, so the rule must not be one that a repair can satisfy
      have hsupplied : l.kind ≠ .supplied := by
        intro hk
        have hmem := hl.supplied hk
        rw [htext] at hmem
        simp [hmem] at hmark
      obtain ⟨token, hleaves, rfl, hnamed, htoken⟩ := l.leaves_eq k true
      have hleaf : Collected inner (Trait.ofKind token.kind) [.leaf none token] := by
        refine .leaf (by simpa using haside) ?_ fun x hx =>
          Trait.on_ofKind (t := .leaf none token) hnamed hx
        have hcongr : (Tree.leaf none token).isGood =
            (Tree.leaf none ⟨token.kind, true, false, "", text, 0⟩).isGood :=
          Tree.isGood_leaf_congr rfl ((htoken hsupplied).trans htext)
        rw [hcongr]
        exact hfits
      have happend := (Collected.asideLeaves hl.asides).append hleaf
      rw [List.append_nil] at happend
      rw [hleaves]
      exact happend
  | literal =>
      simp only [LexemeRule.leaf?] at h
      split at h
      next k hk =>
          obtain ⟨rfl, rfl⟩ := Prod.mk.inj (Option.some.inj h)
          exact .freeLeaves hl.asides (hl.literal k hk) fun x hx => .inl (List.mem_singleton.mp hx)
      next => cases h
  | piece k =>
      obtain ⟨-, hleaf⟩ := Option.ite_none_right_eq_some.mp h
      obtain ⟨rfl, rfl⟩ := Prod.mk.inj (Option.some.inj hleaf)
      exact .freeLeaves hl.asides (by decide) fun x hx => .inl (List.mem_singleton.mp hx)

/-- Lexemes that are taken for one have these texts, and each is at once after the one before. -/
theorem joined?_eq_append {texts : List String} :
    ∀ {input rest : List Lexeme} {m : Lexeme}, joined? texts input = some (m, rest) →
      ∃ l more, input = (l :: more) ++ rest ∧
        m = { l with text := l.text ++ String.join (more.map Lexeme.text) } ∧
        (∀ x ∈ more, x.isGlued = true) ∧ (l :: more).map Lexeme.text = texts := by
  induction texts with
  | nil => intro input rest m h; cases input <;> cases h
  | cons t texts ih =>
      intro input rest m h
      cases input with
      | nil => cases texts <;> cases h
      | cons x xs =>
          cases texts with
          | nil =>
              obtain ⟨rfl, hx⟩ := Option.ite_none_right_eq_some.mp h
              obtain ⟨rfl, rfl⟩ := Prod.mk.inj (Option.some.inj hx)
              exact ⟨x, [], rfl, by simp, List.forall_mem_nil _, rfl⟩
          | cons u us =>
              obtain ⟨⟨rfl, hnext⟩, hx⟩ := Option.ite_none_right_eq_some.mp h
              obtain ⟨⟨m', after⟩, hm', hx⟩ := Option.map_eq_some_iff.mp hx
              obtain ⟨rfl, rfl⟩ := Prod.mk.inj hx
              obtain ⟨l, more, rfl, rfl, hglued, htexts⟩ := ih hm'
              refine ⟨x, l :: more, rfl, by simp, List.forall_mem_cons.mpr ⟨hnext, hglued⟩, ?_⟩
              rw [List.map_cons, htexts]

/-- Lexemes taken for one are spelled together. -/
theorem joined?_eq_some {texts : List String} {input rest : List Lexeme} {l : Lexeme}
    (h : joined? texts input = some (l, rest)) :
    l.text = String.join texts ∧ (∃ first ∈ input, l.asides = first.asides) ∧
      ∀ x ∈ rest, x ∈ input := by
  obtain ⟨first, more, rfl, rfl, -, rfl⟩ := joined?_eq_append h
  refine ⟨?_, ⟨first, by simp, rfl⟩, fun x hx => List.mem_append_right _ hx⟩
  simp [String.join_cons]

/-! ## Readings -/

namespace Rule

variable {P : Type} {g : P → Rule P} {promised : P → List Trait}

theorem mem_traits_of_mem_traitsAny {r : Rule P} {rs : List (Rule P)} {xs : List Trait} {x : Trait}
    (hr : r ∈ rs) (hx : x ∈ traitsAny promised rs xs) : x ∈ traits promised r xs := by
  induction rs with
  | nil => cases hr
  | cons s rs ih =>
      cases rs with
      | nil =>
          obtain rfl := List.mem_singleton.mp hr
          exact hx
      | cons u us =>
          obtain ⟨hs, hrest⟩ := List.mem_filter.mp hx
          rcases List.mem_cons.mp hr with rfl | hr
          · exact hs
          · exact ih hr (List.contains_iff_mem.mp hrest)

theorem check_of_mem {inner : Option String} {r : Rule P} {rs : List (Rule P)} {xs : List Trait}
    (hr : r ∈ rs) (h : checkAny promised inner rs xs = true) : check promised inner r xs = true := by
  induction rs with
  | nil => cases hr
  | cons s rs ih =>
      obtain ⟨hs, hrest⟩ := Bool.and_eq_true_iff.mp h
      rcases List.mem_cons.mp hr with rfl | hr
      · exact hs
      · exact ih hr hrest

/-- One round of a repeated rule keeps what it is checked to keep. -/
theorem kept_kept {r : Rule P} {xs : List Trait}
    (h : (kept promised r xs).all (traits promised r (kept promised r xs)).contains = true) :
    kept promised r (kept promised r xs) = kept promised r xs :=
  List.filter_eq_self.mpr fun x hx => List.all_eq_true.mp h x hx

/-- What stands in the leaves for a lexeme. -/
theorem mem_leaves {l : Lexeme} {kind : String} {named : Bool}
    (hl : ∀ a ∈ l.asides, a.kind ∈ asideKinds) {t : Tree} (ht : t ∈ l.leaves kind named)
    (haside : t.isAside = false) :
    t.isLeaf = true ∧ (l.kind ≠ .supplied → t.text = l.text) := by
  obtain ⟨token, hleaves, -, -, htoken⟩ := l.leaves_eq kind named
  rw [hleaves] at ht
  rcases List.mem_append.mp ht with ht | ht
  · obtain ⟨a, ha, rfl⟩ := List.mem_map.mp ht
    have hkind : (Aside.leaf a).isAside = true := Tree.isAside_iff.mpr (hl a ha)
    rw [haside] at hkind
    cases hkind
  · obtain rfl := List.mem_singleton.mp ht
    exact ⟨rfl, htoken⟩

theorem leaves_of_reads_lexeme {r : LexemeRule} {ts : List Tree} {input rest : List Lexeme}
    (h : Reads g (.lexeme r) [] input ts rest) :
    ∃ l ∈ input, ∃ kind named, r.leaf? l = some (kind, named) ∧ ts = l.leaves kind named := by
  cases h with | lexeme h =>
  obtain ⟨l, kind, named, rfl, hleaf, rfl⟩ := readLexeme_eq_some h
  exact ⟨l, List.mem_cons_self, kind, named, hleaf, rfl⟩

/-- What a rule for one lexeme makes is a leaf. -/
theorem isLeaf_of_isMark {rule : Rule P} {ts : List Tree} {input rest : List Lexeme}
    (hinput : ∀ l ∈ input, l.Fits) (h : Reads g rule [] input ts rest) (hmark : rule.isMark = true) :
    ∀ t ∈ ts, t.isAside = false → t.isLeaf = true := by
  unfold isMark at hmark
  split at hmark
  next =>
      obtain ⟨l, hl, kind, named, -, rfl⟩ := leaves_of_reads_lexeme h
      exact fun t ht haside => (mem_leaves (hinput l hl).asides ht haside).1
  next =>
      cases h with | joined h =>
      obtain ⟨⟨l, after⟩, hl, hts⟩ := Option.map_eq_some_iff.mp h
      obtain ⟨rfl, rfl⟩ := Prod.mk.inj hts
      obtain ⟨-, ⟨first, hfirst, hasides⟩, -⟩ := joined?_eq_some hl
      have hfits : ∀ a ∈ l.asides, a.kind ∈ asideKinds := by
        rw [hasides]
        exact (hinput first hfirst).asides
      exact fun t ht haside => (mem_leaves hfits ht haside).1
  next => cases hmark

/-- The name that a word makes is the word. -/
theorem isPlainName_of_isWord {rule : Rule P} {ts : List Tree} {input rest : List Lexeme}
    (hinput : ∀ l ∈ input, l.Fits) (h : Reads g rule [] input ts rest) (hword : rule.isWord = true) :
    ∀ t ∈ ts, t.isAside = false → t.isLeaf = true ∧ IsPlainName t.text := by
  unfold isWord at hword
  split at hword
  next =>
      obtain ⟨l, hl, kind, named, hleaf, rfl⟩ := leaves_of_reads_lexeme h
      obtain ⟨⟨hkind, -⟩, -⟩ := Option.ite_none_right_eq_some.mp hleaf
      intro t ht haside
      obtain ⟨htleaf, htext⟩ := mem_leaves (hinput l hl).asides ht haside
      rw [htext (by simp [hkind])]
      exact ⟨htleaf, (hinput l hl).word hkind⟩
  next => cases hword

theorem kind_of_isNode {rule : Rule P} {kind : String} {ts : List Tree} {input rest : List Lexeme}
    (h : Reads g rule [] input ts rest) (hnode : rule.isNode kind = true) :
    ∀ t ∈ ts, t.isAside = false → t.kind = kind := by
  unfold isNode at hnode
  split at hnode
  next =>
      obtain rfl := beq_iff_eq.mp hnode
      cases h with | @node _ _ _ inner _ _ h =>
      intro t ht haside
      rw [List.nil_append] at ht
      rcases List.mem_append.mp ht with ht | ht
      · -- the asides in front of the node
        rw [List.mem_takeWhile_imp ht] at haside
        cases haside
      · obtain rfl := List.mem_singleton.mp ht
        rfl
  next => cases hnode

/-- What a rule makes fits in the roles that it may get. -/
theorem fitsRole_of_mayGet {inner : Option String} {rule : Rule P} {r : Role} {ts : List Tree}
    {input rest : List Lexeme} (hinput : ∀ l ∈ input, l.Fits) (h : Reads g rule [] input ts rest)
    (hmay : mayGet inner rule r = true) {kind : String} (hkind : ∀ k, inner = some k → k = kind) :
    ∀ t ∈ ts, t.isAside = false → (t.withRole r).fitsRole kind = true := by
  intro t ht haside
  rw [Tree.fitsRole, Tree.role?_withRole]
  cases r with
  | name =>
      rw [mayGet, Bool.or_eq_true, beq_iff_eq] at hmay
      rcases hmay with hmodule | hword
      · simp [← hkind _ hmodule]
      · obtain ⟨hleaf, hplain⟩ := isPlainName_of_isWord hinput h hword t ht haside
        simp [Tree.isLeaf_withRole, Tree.text_withRole, hleaf, hplain]
  | operator =>
      show (t.withRole .operator).isLeaf = true
      rw [Tree.isLeaf_withRole]
      rw [mayGet] at hmay
      unfold isMarks at hmay
      split at hmay
      next =>
          cases h with | any hr h =>
          exact isLeaf_of_isMark hinput h (List.all_eq_true.mp hmay _ hr) t ht haside
      next => exact isLeaf_of_isMark hinput h hmay t ht haside
  | declarator =>
      show ((t.withRole .declarator).kind == "variable_declarator") = true
      rw [Tree.kind_withRole, kind_of_isNode h hmay t ht haside]
      rfl
  | parameters =>
      obtain ⟨k, hk, hbare⟩ := Option.any_eq_true _ _ |>.mp hmay
      rw [← hkind k hk]
      exact hbare
  | _ => rfl

/-- **A checked grammar makes only trees that fit.** What a rule reads after trees that fit is again
    trees that fit, with the traits that the check tells. -/
theorem reads_collected
    (hg : ∀ p, check promised none (g p) [] = true ∧ ∀ x ∈ promised p, x ∈ traits promised (g p) [])
    {rule : Rule P} {trees ts : List Tree} {input rest : List Lexeme}
    (h : Reads g rule trees input ts rest) :
    ∀ {inner : Option String} {xs : List Trait}, check promised inner rule xs = true →
      Collected inner xs trees → (∀ l ∈ input, l.Fits) →
      Collected inner (traits promised rule xs) ts ∧ ∀ l ∈ rest, l.Fits := by
  induction h with
  | @phrase p trees ts input rest h ih =>
      intro inner xs _ hxs hinput
      obtain ⟨hts, hrest⟩ := ih (hg p).1 .nil hinput
      exact ⟨hxs.append (hts.of_any.mono (hg p).2), hrest⟩
  | lexeme h =>
      intro inner xs hcheck hxs hinput
      obtain ⟨l, kind, named, rfl, hleaf, rfl⟩ := readLexeme_eq_some h
      have hl := hinput l List.mem_cons_self
      exact ⟨hxs.append (.lexemeLeaves hl hcheck hleaf),
        fun x hx => hinput x (List.mem_cons_of_mem l hx)⟩
  | joined h =>
      intro inner xs hcheck hxs hinput
      obtain ⟨l, hl, rfl⟩ := readJoined_eq_some h
      obtain ⟨htext, ⟨first, hfirst, hasides⟩, hafter⟩ := joined?_eq_some hl
      have hleaves : Collected inner [.part] (l.leaves l.text false) := by
        refine .freeLeaves ?_ (by rw [htext]; exact hcheck) fun x hx => .inl (List.mem_singleton.mp hx)
        rw [hasides]
        exact (hinput first hfirst).asides
      exact ⟨hxs.append hleaves, fun x hx => hinput x (hafter x hx)⟩
  | finish h =>
      intro inner xs _ hxs hinput
      obtain ⟨l, rfl, -, rfl⟩ := readFinish_eq_some h
      exact ⟨hxs.append (.asideLeaves (hinput l List.mem_cons_self).asides),
        fun x hx => hinput x (List.mem_cons_of_mem l hx)⟩
  | allNil =>
      intro inner xs _ hxs hinput
      exact ⟨hxs, hinput⟩
  | allCons _ _ ihFirst ihRest =>
      intro inner xs hcheck hxs hinput
      obtain ⟨hfirst, hrest⟩ := Bool.and_eq_true_iff.mp hcheck
      obtain ⟨hmid, hbetween⟩ := ihFirst hfirst hxs hinput
      exact ihRest hrest hmid hbetween
  | any hr _ ih =>
      intro inner xs hcheck hxs hinput
      obtain ⟨hts, hrest⟩ := ih (check_of_mem hr hcheck) hxs hinput
      exact ⟨hts.mono fun x hx => mem_traits_of_mem_traitsAny hr hx, hrest⟩
  | manyNil =>
      intro inner xs _ hxs hinput
      exact ⟨hxs.mono fun x hx => (List.mem_filter.mp hx).1, hinput⟩
  | @manyCons r trees mid ts input between rest _ _ ihFirst ihRest =>
      intro inner xs hcheck hxs hinput
      obtain ⟨hround, hkeeps⟩ := Bool.and_eq_true_iff.mp hcheck
      -- every round starts from the traits that all rounds keep
      have hstart : Collected inner (kept promised r xs) trees :=
        hxs.mono fun x hx => (List.mem_filter.mp hx).1
      obtain ⟨hmid, hbetween⟩ := ihFirst hround hstart hinput
      have hagain : Collected inner (kept promised r xs) mid := hmid.mono fun x hx =>
        List.contains_iff_mem.mp (List.all_eq_true.mp hkeeps x hx)
      have hcheck' : check promised inner (.many r) (kept promised r xs) = true := by
        rw [check, kept_kept hkeeps]
        exact hcheck
      have hresult := ihRest hcheck' hagain hbetween
      rw [traits, ← kept, kept_kept hkeeps] at hresult
      exact hresult
  | @role r rule trees ts input rest h ih =>
      intro inner xs hcheck hxs hinput
      obtain ⟨hrule, hmay⟩ := Bool.and_eq_true_iff.mp hcheck
      obtain ⟨hts, hrest⟩ := ih hrule .nil hinput
      exact ⟨hxs.append (hts.labelled fun kind hkind => fitsRole_of_mayGet hinput h hmay hkind), hrest⟩
  | @node kind rule trees ts input rest h ih =>
      intro inner xs hcheck hxs hinput
      obtain ⟨hrule, hsuffice⟩ := Bool.and_eq_true_iff.mp hcheck
      obtain ⟨hts, hrest⟩ := ih hrule .nil hinput
      exact ⟨hxs.append (hts.wrap hsuffice), hrest⟩
  | @around kind r? rule trees ts input rest h ih =>
      -- what was read before goes into the node, so it has to be fit for any
      intro inner xs hcheck hxs hinput
      cases r? with
      | none =>
          simp only [check, Bool.and_eq_true, Option.isNone_iff_eq_none] at hcheck
          obtain ⟨⟨⟨rfl, -⟩, hrule⟩, hsuffice⟩ := hcheck
          obtain ⟨hts, hrest⟩ := ih hrule hxs.of_any hinput
          exact ⟨hts.wrap hsuffice, hrest⟩
      | some r =>
          simp only [check, Bool.and_eq_true, Option.isNone_iff_eq_none] at hcheck
          obtain ⟨⟨⟨rfl, hfree⟩, hrule⟩, hsuffice⟩ := hcheck
          have htaken : Collected (some kind) (Trait.relabelled r xs) (labelled r trees) :=
            hxs.labelled fun _ _ t _ _ => Tree.fitsRole_withRole_of_isFree hfree t
          obtain ⟨hts, hrest⟩ := ih hrule htaken hinput
          exact ⟨hts.wrap hsuffice, hrest⟩
  | next _ =>
      intro inner xs _ hxs hinput
      exact ⟨hxs, hinput⟩
  | @after kinds trees input h =>
      intro inner xs hcheck hxs hinput
      refine ⟨⟨hxs.good, fun x hx => ?_, hxs.asides, hxs.roles⟩, hinput⟩
      rcases List.mem_cons.mp hx with rfl | hx
      · rw [isAfter, Option.any_eq_true] at h
        obtain ⟨t, ht, hkind⟩ := h
        refine ⟨t, List.mem_of_getLast? ht, ?_, trivial⟩
        have hnone := List.all_eq_true.mp hcheck t.kind (List.contains_iff_mem.mp hkind)
        rw [← Bool.not_eq_true, Tree.isAside_iff]
        simpa using hnone
      · exact hxs.traits x hx

end Rule

/-! ## The grammar passes -/

namespace Phrase

/-- What the phrases promise. -/
def promised : Phrase → List Trait
  | .type _ | .elementType _ | .annotatedType _ => [.part, .typed]
  | .expression _ _ | .functionLiteral | .cast _ | .primary | .creation | .parenthesized
  | .stringLiteral | .switch => [.part]
  | _ => []

/-- The rule of a phrase passes the check and keeps what the phrase promises. -/
def isChecked (p : Phrase) : Bool :=
  Rule.check promised none (grammar p) [] &&
    p.promised.all (Rule.traits promised (grammar p) []).contains

/-- No operator binds tighter than the signs. -/
theorem expression_min (floor : Nat) (function : Bool) :
    Grammar.expression floor function =
      Grammar.expression (min floor Grammar.unaryRank) function := by
  have hlt : ∀ rank ≤ Grammar.unaryRank, rank > floor ↔ rank > min floor Grammar.unaryRank := by
    intro rank hrank
    omega
  -- all ranks that the rule compares with the floor are at most that of the signs
  have hranks : ∀ x ∈ Grammar.binaryOperators, x.1 ≤ Grammar.unaryRank := by decide
  have hfilter : ∀ p q : Nat × List (List String) → Bool,
      (∀ x ∈ Grammar.binaryOperators, p x = q x) →
        Grammar.binaryOperators.filter p = Grammar.binaryOperators.filter q :=
    fun _ _ h => List.filter_congr h
  have hconditional : Grammar.conditionalRank ≥ floor ↔
      Grammar.conditionalRank ≥ min floor Grammar.unaryRank := by
    have hle : Grammar.conditionalRank < Grammar.unaryRank := by decide
    omega
  unfold Grammar.expression Grammar.expressionTail
  rw [hfilter _ fun x => decide (x.1 > min floor Grammar.unaryRank)]
  · simp only [hlt Grammar.testRank (by decide), hlt Grammar.unaryRank (by decide), hconditional]
  · exact fun x hx => decide_eq_decide.mpr (hlt x.1 (hranks x hx))

theorem isChecked_expression (floor : Nat) (function : Bool) :
    (Phrase.expression floor function).isChecked = true := by
  have hbounded : ∀ n ≤ Grammar.unaryRank, ∀ f : Bool, (Phrase.expression n f).isChecked = true := by
    decide +kernel
  have hmin := hbounded (min floor Grammar.unaryRank) (Nat.min_le_right _ _) function
  rw [isChecked, grammar] at hmin ⊢
  rw [expression_min]
  exact hmin

theorem isChecked_all (p : Phrase) : p.isChecked = true := by
  cases p with
  | expression floor function => exact isChecked_expression floor function
  | type site => cases site <;> decide +kernel
  | annotatedType site => cases site <;> decide +kernel
  | elementType site => cases site <;> decide +kernel
  | localVariable site => cases site <;> decide +kernel
  | formalParameters site => cases site <;> decide +kernel
  | formalParameter site => cases site <;> decide +kernel
  | receiver site => cases site <;> decide +kernel
  | methodDeclaration site => cases site <;> decide +kernel
  | cast function => cases function <;> decide +kernel
  | declarators except => rfl
  | _ => decide +kernel

end Phrase

end AccessorScan
