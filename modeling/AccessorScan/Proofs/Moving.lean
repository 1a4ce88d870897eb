import AccessorScan.Proofs.Pieces
import AccessorScan.Proofs.Spelling

/-!
# `Proofs.Moving` — a source that is moved down is read alike

With some line ends in front a source is cut into the same lexemes, further down. They stand behind the
same blanks, but for the first of them, and reading looks at no line and at no blank before the first lexeme.
So the trees are the same, further down, and only their first leaf stands behind other blanks.

## Contents
- `movedDown`: a source behind some line ends.
- `Tree.Moves`, `Lexeme.Moves`, `InputMoves`: trees and lexemes that are moved down.
- `cut_moves`, `inputMoves_lexemes`: the lexemes of a source.
- `Tree.Moves.append`, `labelled`, `wrap`, `leaves`: trees are put together alike.
- `FoundMoves`, `Rule.run_moves`: one rule, and with it any run of a grammar.
- `syntaxTree_moves`: the trees of sources.
-/

namespace AccessorScan

/-- The source behind `k` line ends. -/
def movedDown (k : Nat) (source : String) : String := String.ofList (List.replicate k '\n') ++ source

/-! ## What moves -/

/-- The leaf `y` says what the leaf `x` says, `k` lines further down. If it may be the `first` one of the
    source, it may stand behind other blanks. -/
structure Token.Moves (k : Nat) (first : Bool) (x y : Token) : Prop where
  kind : y.kind = x.kind
  isNamed : y.isNamed = x.isNamed
  isMissing : y.isMissing = x.isMissing
  text : y.text = x.text
  line : y.line = x.line + k
  blank : first = false → y.blank = x.blank

namespace Tree

/-- The trees `us` are the trees `ts`, `k` lines further down. The flags tell whether the first leaf of the
    source may be among them, and whether it may still follow. -/
inductive Moves (k : Nat) : Bool → List Tree → List Tree → Bool → Prop where
  | nil {first left : Bool} (h : left = true → first = true) : Moves k first [] [] left
  | leaf {first left : Bool} {role : Option Role} {x y : Token} {ts us : List Tree}
      (hx : x.Moves k first y) (hrest : Moves k false ts us left) :
      Moves k first (.leaf role x :: ts) (.leaf role y :: us) left
  | node {first between left : Bool} {role : Option Role} {kind : String} {cs ds ts us : List Tree}
      (hcs : Moves k first cs ds between) (hrest : Moves k between ts us left) :
      Moves k first (.node role kind cs :: ts) (.node role kind ds :: us) left

end Tree

/-- The lexeme `m` is the lexeme `l`, `k` lines further down, with what stands before it. -/
structure Lexeme.Moves (k : Nat) (first : Bool) (l m : Lexeme) : Prop where
  kind : m.kind = l.kind
  text : m.text = l.text
  line : m.line = l.line + k
  before : ∃ left, Tree.Moves k first (l.asides.map Aside.leaf) (m.asides.map Aside.leaf) left ∧
    (left = false → m.blank = l.blank)

/-- The lexemes `ms` are the lexemes `ls`, `k` lines further down. -/
inductive InputMoves (k : Nat) : Bool → List Lexeme → List Lexeme → Prop where
  | nil {first : Bool} : InputMoves k first [] []
  | cons {first : Bool} {l m : Lexeme} {ls ms : List Lexeme} (h : l.Moves k first m)
      (hrest : InputMoves k false ls ms) : InputMoves k first (l :: ls) (m :: ms)

variable {k : Nat} {first between left : Bool}

/-! ## Trees -/

namespace Tree

variable {t u : Tree} {ts us ts' us' : List Tree}

namespace Moves

/-- What stands behind the same blanks may stand behind other ones. -/
theorem weaken (h : Moves k first ts us left) {first' : Bool} (hfirst : first = true → first' = true) :
    Moves k first' ts us left := by
  induction h generalizing first' with
  | nil hflag => exact .nil fun hleft => hfirst (hflag hleft)
  | leaf hx hrest =>
      refine .leaf { hx with blank := fun hfirst' => hx.blank ?_ } hrest
      rw [← Bool.not_eq_true] at hfirst' ⊢
      exact fun h => hfirst' (hfirst h)
  | node _ hrest ih _ => exact .node (ih hfirst) hrest

theorem append (h : Moves k first ts us between) (h' : Moves k between ts' us' left) :
    Moves k first (ts ++ ts') (us ++ us') left := by
  induction h with
  | nil hflag => exact h'.weaken hflag
  | leaf hx _ ih => exact .leaf hx (ih h')
  | node hcs _ _ ih => exact .node hcs (ih h')

theorem cons (h : Moves k first [t] [u] between) (hrest : Moves k between ts us left) :
    Moves k first (t :: ts) (u :: us) left :=
  h.append hrest

/-- The first leaf of the source may still follow only where it was to come. -/
theorem first_of_left (h : Moves k first ts us left) : left = true → first = true := by
  induction h with
  | nil hflag => exact hflag
  | leaf _ _ ih => exact fun hleft => absurd (ih hleft) (by decide)
  | node _ _ ihcs ih => exact fun hleft => ihcs (ih hleft)

theorem left_eq_false (h : Moves k false ts us left) : left = false :=
  Bool.eq_false_iff.mpr fun hleft => absurd (h.first_of_left hleft) (by decide)

theorem map_kind_eq (h : Moves k first ts us left) : us.map kind = ts.map kind := by
  induction h with
  | nil _ => rfl
  | leaf hx _ ih => simp only [List.map_cons, ih, kind, hx.kind]
  | node _ _ _ ih => simp only [List.map_cons, ih, kind]

theorem isBroken_eq (h : Moves k first ts us left) : anyBroken us = anyBroken ts := by
  induction h with
  | nil _ => rfl
  | leaf hx _ ih => simp only [anyBroken, isBroken, ih, hx.kind, hx.isMissing]
  | node _ _ ihcs ih => simp only [anyBroken, isBroken, ih, ihcs]

/-- The first tree by itself, and the others. -/
theorem exists_cons (h : Moves k first (t :: ts) us left) :
    ∃ u us' between, us = u :: us' ∧ Moves k first [t] [u] between ∧ Moves k between ts us' left := by
  cases h with
  | leaf hx hrest => exact ⟨_, _, false, rfl, .leaf hx (.nil id), hrest⟩
  | node hcs hrest => exact ⟨_, _, _, rfl, .node hcs (.nil id), hrest⟩

theorem isAside_eq (h : Moves k first [t] [u] left) : u.isAside = t.isAside := by
  have hkind : u.kind = t.kind := List.singleton_inj.mp h.map_kind_eq
  rw [isAside, isAside, isComment, isComment, hkind]

theorem withRole (h : Moves k first [t] [u] left) (r : Role) :
    Moves k first [t.withRole r] [u.withRole r] left := by
  cases h with
  | leaf hx hrest => exact .leaf hx hrest
  | node hcs hrest => exact .node hcs hrest

theorem labelled (h : Moves k first ts us left) (r : Role) :
    Moves k first (labelled r ts) (labelled r us) left := by
  induction ts generalizing us first with
  | nil =>
      cases h with
      | nil hflag => exact .nil hflag
  | cons t ts ih =>
      obtain ⟨u, us, between, rfl, ht, hrest⟩ := h.exists_cons
      refine cons ?_ (ih hrest)
      dsimp only
      rw [ht.isAside_eq]
      split
      · exact ht
      · exact ht.withRole r

theorem wrap (h : Moves k first ts us left) (kind : String) :
    Moves k first (wrap kind ts) (wrap kind us) left := by
  show Moves k first (ts.takeWhile isAside ++ [Tree.node none kind (ts.dropWhile isAside)])
    (us.takeWhile isAside ++ [Tree.node none kind (us.dropWhile isAside)]) left
  induction ts generalizing us first with
  | nil =>
      cases h with
      | nil hflag => exact .node (.nil hflag) (.nil id)
  | cons t ts ih =>
      obtain ⟨u, us, between, rfl, ht, hrest⟩ := h.exists_cons
      rw [List.takeWhile_cons, List.takeWhile_cons, List.dropWhile_cons, List.dropWhile_cons, ht.isAside_eq]
      split
      · exact ht.cons (ih hrest)
      · exact .node h (.nil id)

end Moves

end Tree

/-! ## Lexemes -/

namespace Lexeme.Moves

variable {l m : Lexeme}

/-- The leaf of a lexeme, behind the leaves for what stands before it. -/
theorem leaves (h : l.Moves k first m) (kind : String) (named : Bool) :
    Tree.Moves k first (l.leaves kind named) (m.leaves kind named) false := by
  obtain ⟨left, hbefore, hblank⟩ := h.before
  refine hbefore.append (.leaf ⟨rfl, rfl, ?_, ?_, h.line, hblank⟩ (.nil id))
  · simp only [h.kind]
  · simp only [h.kind, h.text]

theorem isGlued_eq (h : l.Moves k false m) : m.isGlued = l.isGlued := by
  obtain ⟨left, hbefore, hblank⟩ := h.before
  have hlength : m.asides.length = l.asides.length := by
    simpa using congrArg List.length hbefore.map_kind_eq
  have hasides : m.asides.isEmpty = l.asides.isEmpty := by
    rw [Bool.eq_iff_iff, List.isEmpty_iff_length_eq_zero, List.isEmpty_iff_length_eq_zero, hlength]
  rw [Lexeme.isGlued, Lexeme.isGlued, hasides, hblank hbefore.left_eq_false]

theorem weaken (h : l.Moves k false m) : l.Moves k first m := by
  obtain ⟨left, hbefore, hblank⟩ := h.before
  exact { h with before := ⟨left, hbefore.weaken nofun, hblank⟩ }

end Lexeme.Moves

namespace InputMoves

variable {ls ms : List Lexeme}

theorem weaken (h : InputMoves k false ls ms) : InputMoves k first ls ms := by
  cases h with
  | nil => exact .nil
  | cons h hrest => exact .cons h.weaken hrest

theorem length_eq (h : InputMoves k first ls ms) : ms.length = ls.length := by
  induction h with
  | nil => rfl
  | cons _ _ ih => rw [List.length_cons, List.length_cons, ih]

theorem any_isGlued_eq (h : InputMoves k false ls ms) :
    ms.head?.any Lexeme.isGlued = ls.head?.any Lexeme.isGlued := by
  cases h with
  | nil => rfl
  | cons h _ => exact h.isGlued_eq

end InputMoves

/-! ## Cutting -/

theorem firstLexeme_length_pos (opened : List OpenString) (c : Char) (rest : List Char) :
    0 < (firstLexeme opened (c :: rest)).2.1 := by
  unfold firstLexeme
  simp only
  repeat' split
  all_goals first | omega | (dsimp only; omega)

theorem comment?_length_pos {cs : List Char} {kind : String} {n : Nat} (h : comment? cs = some (kind, n)) :
    0 < n := by
  unfold comment? at h
  split at h
  next => obtain ⟨-, rfl⟩ := Prod.mk.inj (Option.some.inj h); omega
  next =>
      obtain ⟨m, -, hm⟩ := Option.map_eq_some_iff.mp h
      obtain ⟨-, rfl⟩ := Prod.mk.inj hm
      omega
  next => cases h

theorem lineBreaks_append (cs ds : List Char) : lineBreaks (cs ++ ds) = lineBreaks cs + lineBreaks ds :=
  List.count_append

/-- With the `gap` before it the cutter `s'` is the cutter `s`, `k` lines further down. There is a gap only where
    the first leaf of the source is still to come. -/
structure Cutter.Moves (k : Nat) (first left : Bool) (gap : List Char) (s s' : Cutter) : Prop where
  blank : ∀ c ∈ gap, isBlankChar c = true
  line : s'.line + lineBreaks gap = s.line + k
  opened : s'.opened = s.opened
  comments : Tree.Moves k first (s.comments.reverse.map Aside.leaf) (s'.comments.reverse.map Aside.leaf) left
  gap : left = false → gap = []

namespace Cutter.Moves

variable {gap : List Char} {s s' : Cutter}

/-- Behind more blanks. -/
theorem line_behind (h : Moves k first left gap s s') (blank : List Char) :
    s'.line + lineBreaks (gap ++ blank) = s.line + lineBreaks blank + k := by
  have hline := h.line
  rw [lineBreaks_append]
  omega

theorem blank_behind (h : Moves k first left gap s s') (blank : List Char) (hleft : left = false) :
    String.ofList (gap ++ blank) = String.ofList blank := by
  rw [h.gap hleft, List.nil_append]

/-- What is cut off next. -/
theorem lexeme (h : Moves k first left gap s s') (kind : LexemeKind) (text : String) (blank : List Char)
    (offset offset' : Nat) :
    Lexeme.Moves k first
      ⟨kind, text, s.comments.reverse, String.ofList blank, s.line + lineBreaks blank, offset⟩
      ⟨kind, text, s'.comments.reverse, String.ofList (gap ++ blank), s'.line + lineBreaks (gap ++ blank),
        offset'⟩ :=
  ⟨rfl, rfl, h.line_behind blank, left, h.comments, h.blank_behind blank⟩

/-- Behind something that is cut off there is no gap any more. -/
theorem next (h : Moves k first left gap s s') {first' : Bool} {comments comments' : List Aside}
    (blank text : List Char) (opened : List OpenString) (offset offset' : Nat)
    (hcomments : Tree.Moves k first' (comments.reverse.map Aside.leaf) (comments'.reverse.map Aside.leaf)
      false) :
    Moves k first' false [] ⟨s.line + lineBreaks blank + lineBreaks text, offset, comments, opened⟩
      ⟨s'.line + lineBreaks (gap ++ blank) + lineBreaks text, offset', comments', opened⟩ where
  blank := fun c hc => absurd hc List.not_mem_nil
  line := by
    have hline := h.line_behind blank
    have hnone : lineBreaks [] = 0 := rfl
    dsimp only
    omega
  opened := rfl
  comments := hcomments
  gap := fun _ => rfl

/-- A comment waits behind the others. -/
theorem waiting (h : Moves k first left gap s s') (blank : List Char) (kind text : String) :
    Tree.Moves k first
      ((⟨String.ofList blank, kind, text, s.line + lineBreaks blank⟩ :: s.comments : List Aside).reverse.map
        Aside.leaf)
      ((⟨String.ofList (gap ++ blank), kind, text, s'.line + lineBreaks (gap ++ blank)⟩ :: s'.comments :
        List Aside).reverse.map Aside.leaf) false := by
  simp only [List.reverse_cons, List.map_append]
  exact h.comments.append
    (.leaf ⟨rfl, rfl, rfl, rfl, h.line_behind blank, h.blank_behind blank⟩ (.nil id))

end Cutter.Moves

/-- **Cutting.** A text is cut alike further down, and with any blanks in front. If there are some, no comment
    waits for the first lexeme. -/
theorem cut_moves {fuel : Nat} :
    ∀ {fuel' : Nat} {s s' : Cutter} {gap cs : List Char} {first left : Bool},
      Cutter.Moves k first left gap s s' → cs.length < fuel → (gap ++ cs).length < fuel' →
      InputMoves k first (cut fuel s cs) (cut fuel' s' (gap ++ cs)) := by
  induction fuel with
  | zero => exact fun _ hfuel => absurd hfuel (Nat.not_lt_zero _)
  | succ fuel ih =>
      intro fuel' s s' gap cs first left h hfuel hfuel'
      obtain ⟨fuel', rfl⟩ : ∃ less, fuel' = less + 1 := Nat.exists_eq_add_one.mpr (Nat.zero_lt_of_lt hfuel')
      have htake : (gap ++ cs).takeWhile isBlankChar = gap ++ cs.takeWhile isBlankChar :=
        List.takeWhile_append_of_pos h.blank
      have hdrop : (gap ++ cs).dropWhile isBlankChar = cs.dropWhile isBlankChar :=
        List.dropWhile_append_of_pos h.blank
      have hshort : (cs.dropWhile isBlankChar).length ≤ cs.length := List.length_dropWhile_le _ _
      rw [List.length_append] at hfuel'
      rw [cut, cut]
      simp only [htake, hdrop, h.opened]
      generalize cs.takeWhile isBlankChar = blank
      generalize cs.dropWhile isBlankChar = rest at hshort ⊢
      cases rest with
      | nil => exact .cons (h.lexeme _ _ blank _ _) .nil
      | cons c rest =>
          simp only [List.isEmpty_cons, Bool.false_eq_true, if_false]
          -- what is cut off is not empty, so less than all of the fuel is needed for what is left
          have hless : ∀ n, 0 < n → ((c :: rest).drop n).length < fuel ∧
              ([] ++ (c :: rest).drop n).length < fuel' := fun n hn => by
            rw [List.nil_append, List.length_drop]
            rw [List.length_cons] at hshort ⊢
            omega
          cases hcomment : comment? (c :: rest) with
          | some found =>
              obtain ⟨kind, n⟩ := found
              obtain ⟨hn, hn'⟩ := hless n (comment?_length_pos hcomment)
              exact @ih _ _ _ [] _ _ _ (h.next blank _ _ _ _ (h.waiting blank kind _)) hn hn'
          | none =>
              obtain ⟨hn, hn'⟩ := hless _ (firstLexeme_length_pos s.opened c rest)
              generalize firstLexeme s.opened (c :: rest) = lexeme at hn hn' ⊢
              obtain ⟨kind, n, opened⟩ := lexeme
              refine .cons (h.lexeme kind _ blank _ _) ?_
              exact @ih _ _ _ [] _ _ _ (h.next blank _ opened _ _ (.nil id)) hn hn'

theorem toList_movedDown (k : Nat) (source : String) :
    (movedDown k source).toList = List.replicate k '\n' ++ source.toList := by
  rw [movedDown, String.toList_append, String.toList_ofList]

theorem withoutOrderMark_eq_self {cs : List Char} (h : ¬ orderMark.toList <+: cs) :
    withoutOrderMark cs = cs := by
  cases cs with
  | nil => rfl
  | cons c rest =>
      rw [withoutOrderMark, if_neg]
      intro hc
      obtain rfl : c = Char.ofNat 0xFEFF := by rw [← hc, Char.ofNat_toNat]
      exact h (List.prefix_append orderMark.toList rest)

/-- The lexemes of a source without an order mark. -/
theorem inputMoves_lexemes (k : Nat) {source : String} (hmark : ¬ orderMark.toList <+: source.toList) :
    InputMoves k true (lexemes source) (lexemes (movedDown k source)) := by
  have hmoved : withoutOrderMark (movedDown k source).toList = (movedDown k source).toList := by
    rw [toList_movedDown]
    cases k with
    | zero => exact withoutOrderMark_eq_self hmark
    | succ k => rfl
  have hline : 1 + lineBreaks (List.replicate k '\n') = 1 + k := by
    rw [lineBreaks, List.count_replicate_self]
  have hgap : ∀ c ∈ List.replicate k '\n', isBlankChar c = true := by
    intro c hc
    obtain rfl := List.eq_of_mem_replicate hc
    rfl
  have hstart : Cutter.Moves k true true (List.replicate k '\n') ⟨1, 0, [], []⟩ ⟨1, 0, [], []⟩ :=
    ⟨hgap, hline, rfl, .nil id, fun h => absurd h (by decide)⟩
  rw [lexemes, lexemes, withoutOrderMark_eq_self hmark, hmoved, toList_movedDown]
  exact cut_moves hstart (Nat.lt_succ_self _) (Nat.lt_succ_self _)

/-! ## Reading -/

/-- What is found further down is what is found here, moved down. -/
def FoundMoves (k : Nat) (first : Bool) :
    Option (List Tree × List Lexeme) → Option (List Tree × List Lexeme) → Prop :=
  Option.Rel fun found found' => ∃ left, Tree.Moves k first found.1 found'.1 left ∧
    InputMoves k left found.2 found'.2

namespace FoundMoves

variable {x y : Option (List Tree × List Lexeme)}

/-- What is made of the trees alike is moved, too. -/
theorem map (h : FoundMoves k between x y) {f f' : List Tree → List Tree}
    (hf : ∀ {ts us left}, Tree.Moves k between ts us left → Tree.Moves k first (f ts) (f' us) left) :
    FoundMoves k first (x.map fun found => (f found.1, found.2)) (y.map fun found => (f' found.1, found.2)) := by
  cases h with
  | none => exact .none
  | some h =>
      obtain ⟨left, htrees, hinput⟩ := h
      exact .some ⟨left, hf htrees, hinput⟩

theorem bind (h : FoundMoves k first x y)
    {f f' : List Tree × List Lexeme → Option (List Tree × List Lexeme)}
    (hf : ∀ {ts us ls ms left}, Tree.Moves k first ts us left → InputMoves k left ls ms →
      FoundMoves k first (f (ts, ls)) (f' (us, ms))) : FoundMoves k first (x.bind f) (y.bind f') := by
  cases h with
  | none => exact .none
  | some h =>
      obtain ⟨left, htrees, hinput⟩ := h
      exact hf htrees hinput

theorem or (h : FoundMoves k first x y) {x' y' : Option (List Tree × List Lexeme)}
    (h' : FoundMoves k first x' y') : FoundMoves k first (x.or x') (y.or y') := by
  cases h with
  | none => exact h'
  | some h => exact .some h

end FoundMoves

namespace Rule

variable {P : Type} {trees trees' : List Tree} {input input' : List Lexeme}

theorem readLexeme_moves (r : LexemeRule) (htrees : Tree.Moves k first trees trees' between)
    (hinput : InputMoves k between input input') :
    FoundMoves k first (readLexeme r trees input) (readLexeme r trees' input') := by
  cases hinput with
  | nil => exact .none
  | @cons _ l m ls ms h hrest =>
      have hleaf : r.leaf? m = r.leaf? l := by
        cases r <;> simp only [LexemeRule.leaf?, h.kind, h.text]
      rw [readLexeme, readLexeme, hleaf]
      cases r.leaf? l with
      | none => exact .none
      | some leaf => exact .some ⟨false, htrees.append (h.leaves leaf.1 leaf.2), hrest⟩

theorem joined?_cons (text text' : String) (texts : List String) (l : Lexeme) (ls : List Lexeme) :
    joined? (text :: text' :: texts) (l :: ls) =
      if l.text = text ∧ ls.head?.any Lexeme.isGlued then
        (joined? (text' :: texts) ls).map fun (m, rest) => ({ l with text := l.text ++ m.text }, rest)
      else none := rfl

/-- Lexemes that are taken for one are taken for one further down. -/
theorem joined?_moves (texts : List String) (hinput : InputMoves k first input input') :
    Option.Rel (fun found found' => found.1.Moves k first found'.1 ∧ InputMoves k false found.2 found'.2)
      (joined? texts input) (joined? texts input') := by
  induction texts generalizing input input' first with
  | nil =>
      rw [joined?, joined?]
      exact .none
  | cons text texts ih =>
      cases hinput with
      | nil =>
          cases texts <;> exact .none
      | @cons _ l m ls ms h hrest =>
          cases texts with
          | nil =>
              rw [joined?, joined?, h.text]
              split
              · exact .some ⟨h, hrest⟩
              · exact .none
          | cons text' texts =>
              have hothers := ih hrest
              rw [joined?_cons, joined?_cons, h.text, hrest.any_isGlued_eq]
              split
              · generalize joined? (text' :: texts) ls = x, joined? (text' :: texts) ms = y at hothers
                cases hothers with
                | none => exact .none
                | some hfound =>
                    -- the whole starts where its first part does
                    obtain ⟨hjoined, hafter⟩ := hfound
                    exact .some ⟨{ h with text := by simp only [hjoined.text] }, hafter⟩
              · exact .none

theorem readJoined_moves (texts : List String) (htrees : Tree.Moves k first trees trees' between)
    (hinput : InputMoves k between input input') :
    FoundMoves k first (readJoined texts trees input) (readJoined texts trees' input') := by
  have hjoined := joined?_moves texts hinput
  rw [readJoined, readJoined]
  generalize joined? texts input = x, joined? texts input' = y at hjoined
  cases hjoined with
  | none => exact .none
  | @some found found' hfound =>
      obtain ⟨l, rest⟩ := found
      obtain ⟨m, rest'⟩ := found'
      obtain ⟨hl, hrest⟩ := hfound
      refine .some ⟨false, htrees.append ?_, hrest⟩
      rw [hl.text]
      exact hl.leaves l.text false

theorem readFinish_moves (htrees : Tree.Moves k first trees trees' between)
    (hinput : InputMoves k between input input') :
    FoundMoves k first (readFinish trees input) (readFinish trees' input') := by
  cases hinput with
  | nil => exact .none
  | @cons _ l m ls ms h hrest =>
      obtain ⟨left, hbefore, -⟩ := h.before
      rw [readFinish, readFinish, h.kind]
      split
      · exact .some ⟨left, htrees.append hbefore, hrest.weaken⟩
      · exact .none

theorem isNext_moves (texts : List String) (hinput : InputMoves k first input input') :
    isNext texts input' = isNext texts input := by
  cases hinput with
  | nil => rfl
  | cons h _ => rw [isNext, isNext, h.text]

theorem isAfter_moves (kinds : List String) (htrees : Tree.Moves k first trees trees' between) :
    isAfter kinds trees' = isAfter kinds trees := by
  have hlast : ∀ ts : List Tree, isAfter kinds ts = (ts.map Tree.kind).getLast?.any kinds.contains :=
    fun ts => by rw [isAfter, List.getLast?_map, Option.any_map]
  rw [hlast, hlast, htrees.map_kind_eq]

/-- **One run.** A rule finds further down what it finds here, or nothing in both places. -/
theorem run_moves (g : P → Rule P) {fuel : Nat} :
    ∀ {rule : Rule P} {first between : Bool} {trees trees' : List Tree} {input input' : List Lexeme},
      Tree.Moves k first trees trees' between → InputMoves k between input input' →
      FoundMoves k first (run g fuel rule trees input).found? (run g fuel rule trees' input').found? := by
  induction fuel with
  | zero => exact fun _ _ => .none
  | succ fuel ih =>
      intro rule first between trees trees' input input' htrees hinput
      have hstart : Tree.Moves k between [] [] between := .nil id
      cases rule with
      | phrase p =>
          rw [run, run, Outcome.found?_map, Outcome.found?_map]
          exact (ih hstart hinput).map fun h => htrees.append h
      | lexeme r =>
          rw [run, run, Outcome.found?_ofOption, Outcome.found?_ofOption]
          exact readLexeme_moves r htrees hinput
      | joined texts =>
          rw [run, run, Outcome.found?_ofOption, Outcome.found?_ofOption]
          exact readJoined_moves texts htrees hinput
      | finish =>
          rw [run, run, Outcome.found?_ofOption, Outcome.found?_ofOption]
          exact readFinish_moves htrees hinput
      | all rs =>
          cases rs with
          | nil => exact .some ⟨between, htrees, hinput⟩
          | cons r rs =>
              rw [run, run, Outcome.found?_andThen, Outcome.found?_andThen]
              exact (ih htrees hinput).bind ih
      | any rs =>
          cases rs with
          | nil => exact .none
          | cons r rs =>
              rw [run, run, Outcome.found?_orElse, Outcome.found?_orElse]
              exact (ih htrees hinput).or (ih htrees hinput)
      | many r =>
          have hfirst : FoundMoves k first (run g fuel r trees input).found?
              (run g fuel r trees' input').found? := ih htrees hinput
          rw [found?_run_many, found?_run_many]
          generalize (run g fuel r trees input).found? = x, (run g fuel r trees' input').found? = y at hfirst
          cases hfirst with
          | none => exact .some ⟨between, htrees, hinput⟩
          | some hfound =>
              obtain ⟨left, htrees, hinput⟩ := hfound
              exact ih htrees hinput
      | role r rule =>
          rw [run, run, Outcome.found?_map, Outcome.found?_map]
          exact (ih hstart hinput).map fun h => htrees.append (h.labelled r)
      | node kind rule =>
          rw [run, run, Outcome.found?_map, Outcome.found?_map]
          exact (ih hstart hinput).map fun h => htrees.append (h.wrap kind)
      | around kind r? rule =>
          have htaken : Tree.Moves k first (taken r? trees) (taken r? trees') between := by
            cases r? with
            | none => exact htrees
            | some r => exact htrees.labelled r
          show FoundMoves k first ((run g fuel rule (taken r? trees) input).map (Tree.wrap kind)).found?
            ((run g fuel rule (taken r? trees') input').map (Tree.wrap kind)).found?
          rw [Outcome.found?_map, Outcome.found?_map]
          exact (ih htaken hinput).map fun h => h.wrap kind
      | next wanted texts =>
          rw [run, run, isNext_moves texts hinput]
          split
          · exact .some ⟨between, htrees, hinput⟩
          · exact .none
      | after kinds =>
          rw [run, run, isAfter_moves kinds htrees]
          split
          · exact .some ⟨between, htrees, hinput⟩
          · exact .none

end Rule

/-! ## Sources -/

theorem readProgram_moves {ls ms : List Lexeme} (h : InputMoves k true ls ms) :
    FoundMoves k true (readProgram ls).found? (readProgram ms).found? := by
  rw [readProgram, readProgram, h.length_eq]
  exact Rule.run_moves grammar (.nil id) h

/-- **Sources.** An unbroken source is read further down as it is read here. -/
theorem syntaxTree_moves (k : Nat) {source : String} (hmark : ¬ orderMark.toList <+: source.toList)
    (hwhole : (syntaxTree source).isBroken = false) :
    ∃ left, Tree.Moves k true [syntaxTree source] [syntaxTree (movedDown k source)] left := by
  obtain ⟨ts, rest, hfound, htree⟩ := found_of_unbroken hwhole
  have hmoves := readProgram_moves (inputMoves_lexemes k hmark)
  rw [hfound] at hmoves
  generalize hmoved : (readProgram (lexemes (movedDown k source))).found? = found at hmoves
  cases hmoves with
  | @some _ found h =>
      obtain ⟨us, rest'⟩ := found
      obtain ⟨left, htrees, -⟩ := h
      rw [htree, syntaxTree_eq_of_found hmoved]
      exact ⟨left, .node htrees (.nil id)⟩

end AccessorScan
