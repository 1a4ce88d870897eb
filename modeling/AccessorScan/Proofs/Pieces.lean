import AccessorScan.Proofs.Cutting
import AccessorScan.Report.Source

/-!
# `Proofs.Pieces` — classes that are written piece by piece

A class is written as a head, members and a closing brace, with any blanks between them. A member is a piece
of text that is cut and read alike wherever it stands. What is declared by such a class are its members, one
after the other.

## Contents
- `Piece`, `Piece.IsSound`: members as they are written.
- `AnswersMember`, `AnswersMember.declares`: what a member declares, shown by a run on moulds.
- `finds_members`: one step for each member, and a run of them.
- `ClassReading`, `ClassReading.readProgram_eq`: the tree of a class.
- `cutsAs_of_spelled`: the lexemes of a piece.
- `ofSource_classText`: the model of a class.
-/

namespace AccessorScan

open Rule (Finds)

/-! ## Members -/

/-- Lexemes that are read as a member of a class, whatever follows them, and the tree of the member. -/
structure MemberReading where
  lexemes : List Lexeme
  tree : Tree
  nonempty : lexemes ≠ []
  finds : ∀ tail, Finds grammar 200 Grammar.classMember [] (lexemes ++ tail) (some ([tree], tail))

/-- Lexemes of these moulds are read as a member of a class. Only its line depends on where it stands. -/
def Declares (moulds : List Mould) (member : Nat → Member) : Prop :=
  ∀ ls, List.Forall₂ Mould.Fits moulds ls → ∃ (r : MemberReading) (line : Nat), r.lexemes = ls ∧
    Member.listOfTree r.tree = [member line] ∧ r.tree.isBroken = false

/-- A member of a class as it is written. -/
structure Piece where
  text : String
  moulds : List Mould
  member : Nat → Member

/-- The member is the one that the piece declares, on whichever line. -/
def Piece.Yields (p : Piece) (m : Member) : Prop := ∃ line, m = p.member line

structure Piece.IsSound (p : Piece) : Prop where
  cuts : CutsAs p.text p.moulds
  declares : Declares p.moulds p.member

/-! ## What a computation shows of members -/

/-- The mould says no more than the other one. -/
def Mould.Covers (general m : Mould) : Prop :=
  general = m ∨ general = .name ∧ ∃ text, m = .fixed .word text ∧ IsFreeName text

theorem Mould.covers_refl (m : Mould) : m.Covers m := .inl rfl

theorem Mould.covers_name {text : String} (h : IsFreeName text) : Mould.name.Covers (.fixed .word text) :=
  .inr ⟨rfl, text, rfl, h⟩

theorem Mould.Covers.fits {general m : Mould} {l : Lexeme} (h : general.Covers m) (hfits : m.Fits l) :
    general.Fits l := by
  rcases h with rfl | ⟨rfl, text, rfl, hfree⟩
  · exact hfits
  · refine ⟨hfits.asides, hfits.unsupplied, hfits.kind, ?_⟩
    rw [Mould.Allows, show l.text = text from hfits.text]
    exact hfree

theorem forall₂_fits_of_covers {shape moulds : List Mould} {ls : List Lexeme}
    (h : List.Forall₂ Mould.Covers shape moulds) (hfits : List.Forall₂ Mould.Fits moulds ls) :
    List.Forall₂ Mould.Fits shape ls := by
  induction h generalizing ls with
  | nil =>
      cases hfits
      exact .nil
  | cons hcovers _ ih =>
      cases hfits with
      | cons hfits hrest => exact .cons (hcovers.fits hfits) (ih hrest)

theorem text_lexemeAt {moulds : List Mould} {ls : List Lexeme} (hfits : List.Forall₂ Mould.Fits moulds ls)
    {place : Nat} {kind : LexemeKind} {text : String} (h : moulds[place]? = some (.fixed kind text)) :
    (lexemeAt ls place).text = text := by
  obtain ⟨hplace, hmould⟩ := List.getElem?_eq_some_iff.mp h
  have hls : place < ls.length := hfits.length_eq ▸ hplace
  have hfit := (List.forall₂_iff_get.mp hfits).2 place hplace hls
  rw [List.get_eq_getElem, hmould] at hfit
  rw [lexemeAt, List.getElem?_eq_getElem hls, Option.getD_some]
  exact hfit.text

/-- By a run on moulds a member is read that is made from the lexemes at some places. -/
def AnswersMember (shape : List Mould) (member : (Nat → Lexeme) → Member) : Prop :=
  ∃ sketch, Rule.answer grammar 200 Grammar.classMember [] (holes shape) = .found [sketch] [] ∧
    ∀ ls, Member.listOfTree (sketch.fill ls) = [member ls] ∧ (sketch.fill ls).isBroken = false

theorem AnswersMember.declares {shape moulds : List Mould} {answered : (Nat → Lexeme) → Member}
    {member : Nat → Member} (h : AnswersMember shape answered) (hsome : moulds ≠ [])
    (hcovers : List.Forall₂ Mould.Covers shape moulds)
    (hmember : ∀ ls, List.Forall₂ Mould.Fits moulds ls → ∃ line, answered (lexemeAt ls) = member line) :
    Declares moulds member := by
  intro ls hfits
  obtain ⟨sketch, hanswer, hfill⟩ := h
  obtain ⟨line, hline⟩ := hmember ls hfits
  obtain ⟨hlist, hbroken⟩ := hfill (lexemeAt ls)
  have hnonempty : ls ≠ [] := fun hls => hsome (List.forall₂_nil_right_iff.mp (hls ▸ hfits))
  have hfinds := finds_of_answer hanswer (forall₂_fits_of_covers hcovers hfits)
  exact ⟨⟨ls, sketch.fill (lexemeAt ls), hnonempty, hfinds⟩, line, rfl, hline ▸ hlist, hbroken⟩

/-! ## Reading a class -/

/-- The leaf of a keyword or a mark. -/
def exactLeaf (text : String) (l : Lexeme) : Tree := .leaf none ⟨text, false, false, l.blank, text, l.line⟩

section Steps

variable {trees : List Tree} {tail : List Lexeme} {l : Lexeme}

theorem finds_exact {kind : LexemeKind} {text : String} (hfits : (Mould.fixed kind text).Fits l) :
    Finds grammar 1 (.lexeme (.exact text)) trees (l :: tail) (some (trees ++ [exactLeaf text l], tail)) :=
  Finds.step fun fuel _ => by
    have htext : l.text = text := hfits.text
    have hsupplied : (l.kind == .supplied) = false := by simp [hfits.unsupplied]
    show (Outcome.ofOption _ (Rule.readLexeme (.exact text) trees (l :: tail))).found? = _
    rw [Outcome.found?_ofOption]
    simp [Rule.readLexeme, LexemeRule.leaf?, htext, Lexeme.leaves, hfits.asides, hsupplied, exactLeaf]

theorem finds_finish (hfits : (Mould.fixed .finish "").Fits l) :
    Finds grammar 1 .finish trees (l :: tail) (some (trees, tail)) :=
  Finds.step fun fuel _ => by
    have hkind : l.kind = .finish := hfits.kind
    show (Outcome.ofOption _ (Rule.readFinish trees (l :: tail))).found? = _
    rw [Outcome.found?_ofOption, Rule.readFinish, hfits.asides, if_pos hkind, List.map_nil,
      List.append_nil]

/-- The members are read one after the other, up to the closing brace. -/
theorem finds_members {parts : List MemberReading} (hclosing : (Mould.fixed .mark rightBrace).Fits l) :
    Finds grammar (202 + parts.length) (.many (.phrase .classMember)) trees
      (parts.flatMap MemberReading.lexemes ++ l :: tail)
      (some (trees ++ parts.map MemberReading.tree, l :: tail)) := by
  induction parts generalizing trees with
  | nil =>
      -- the closing brace is no member, which ends the run
      have hmiss := misses_of_answer (show Rule.answer grammar 200 Grammar.classMember []
        (holes [.fixed .mark rightBrace]) = .missed from rfl) (.cons hclosing .nil) tail
      rw [List.map_nil, List.append_nil]
      exact Finds.many_nil (Finds.phrase_none hmiss)
  | cons p parts ih =>
      have hfirst : Finds grammar 201 (.phrase .classMember) trees
          (p.lexemes ++ (parts.flatMap MemberReading.lexemes ++ l :: tail))
          (some (trees ++ [p.tree], parts.flatMap MemberReading.lexemes ++ l :: tail)) :=
        Finds.phrase (p.finds _)
      have hrest := @ih (trees ++ [p.tree])
      rw [List.flatMap_cons, List.append_assoc, List.map_cons, List.append_cons trees, List.length_cons]
      exact (Finds.many_cons hfirst hrest).mono (by omega)

end Steps

/-- What stands before the members of a class. -/
def headMoulds (m : Mould) : List Mould := [.fixed .word "class", m, .fixed .mark leftBrace]

/-- The lexemes of a class: its head, its members and its closing brace. -/
structure ClassReading where
  head : List Lexeme
  parts : List MemberReading
  closing : Lexeme
  head_fits : List.Forall₂ Mould.Fits (headMoulds .name) head
  closing_fits : (Mould.fixed .mark rightBrace).Fits closing

namespace ClassReading

variable (c : ClassReading) (tail : List Lexeme)

/-- What follows the head. -/
def afterHead : List Lexeme := c.parts.flatMap MemberReading.lexemes ++ c.closing :: tail

def bodyLeaves : List Tree :=
  exactLeaf leftBrace (lexemeAt c.head 2) :: c.parts.map MemberReading.tree ++ [exactLeaf rightBrace c.closing]

/-- The tree of the class. -/
def tree : Tree :=
  let name := lexemeAt c.head 1
  .node none "class_declaration" [
    exactLeaf "class" (lexemeAt c.head 0),
    .leaf (some .name) ⟨"identifier", true, false, name.blank, name.text, name.line⟩,
    .node (some .body) "class_body" c.bodyLeaves]

theorem finds_classBody :
    Finds grammar (205 + c.parts.length) Grammar.classBody [] (lexemeAt c.head 2 :: c.afterHead tail)
      (some ([.node none "class_body" c.bodyLeaves], tail)) := by
  have hopening : (Mould.fixed .mark leftBrace).Fits (lexemeAt c.head 2) :=
    filled_holes c.head_fits ⟨2, .fixed .mark leftBrace⟩ (.tail _ (.tail _ (.head _)))
  have hfirst : Finds grammar 1 (.lexeme (.exact leftBrace)) [] (lexemeAt c.head 2 :: c.afterHead tail)
      (some ([exactLeaf leftBrace (lexemeAt c.head 2)], c.afterHead tail)) := finds_exact hopening
  have hlast : Finds grammar 1 (.lexeme (.exact rightBrace)) _ (c.closing :: tail)
      (some (c.bodyLeaves, tail)) := finds_exact c.closing_fits
  have hall := Finds.all_cons hfirst (Finds.all_cons (finds_members c.closing_fits)
    (Finds.all_cons hlast Finds.all_nil))
  exact (Finds.node hall).mono (by omega)

theorem finds_classDeclaration :
    Finds grammar (320 + c.parts.length) Grammar.classDeclaration [] (c.head ++ c.afterHead tail)
      (some ([c.tree], tail)) := by
  -- The head is the same for all names, so it is computed. The body is not: it has any number of members.
  obtain ⟨rules, hrules, hlength, hanswer⟩ : ∃ rules, Grammar.classDeclaration =
        .around "class_declaration" none (.all (rules ++ [.role .body (.phrase .classBody)])) ∧
      rules.length = 6 ∧
      Rule.answer grammar 100 (.all rules) [] (holes (headMoulds .name)) =
        .found [.leaf none "class" false ⟨0, .fixed .word "class"⟩, .leaf (some .name) "identifier" true ⟨1, .name⟩]
          [⟨2, .fixed .mark leftBrace⟩] :=
    ⟨[_, _, _, _, _, _], rfl, rfl, rfl⟩
  have hhead := finds_of_answer hanswer c.head_fits (c.afterHead tail)
  have hbody : Finds grammar _ (.phrase .classBody) [] (lexemeAt c.head 2 :: c.afterHead tail)
      (some ([.node none "class_body" c.bodyLeaves], tail)) := Finds.phrase (c.finds_classBody tail)
  have hall : Finds grammar _ _ (Rule.taken none []) _ _ :=
    Finds.all_append hhead (Finds.all_cons (Finds.role hbody (x := .body)) Finds.all_nil)
  rw [hrules]
  exact (Finds.around hall).mono (by omega)

/-- A class is none of the things that are tried before it. -/
theorem finds_topLevel :
    Finds grammar (900 + c.parts.length) Grammar.topLevel [] (c.head ++ c.afterHead tail)
      (some ([c.tree], tail)) := by
  -- Methods and the statements that start with another keyword are tried first, and no modifiers stand before
  -- the class.
  have hmethod := misses_of_answer (show Rule.answer grammar 200
    (.any [.phrase (.methodDeclaration .statement)]) [] (holes (headMoulds .name)) = .missed from rfl)
    c.head_fits (c.afterHead tail)
  have hkeyword := misses_of_answer (show Rule.answer grammar 200 (.any Grammar.keywordStatements) []
    (holes (headMoulds .name)) = .missed from rfl) c.head_fits (c.afterHead tail)
  have hmodifiers := finds_of_answer (show Rule.answer grammar 100 (.all [.maybe (.phrase .modifiers)]) []
    (holes (headMoulds .name)) = .found [] (holes (headMoulds .name)) from rfl) c.head_fits (c.afterHead tail)
  rw [lexemesIn_holes c.head_fits] at hmodifiers
  have htype : Finds grammar _ (.phrase .typeDeclaration) [] (c.head ++ c.afterHead tail)
      (some ([c.tree], tail)) :=
    Finds.phrase (Finds.all_append hmodifiers
      (Finds.all_cons (Finds.any_cons (c.finds_classDeclaration tail)) Finds.all_nil))
  obtain ⟨others, hothers⟩ : ∃ others, grammar .statement =
      .any (Grammar.keywordStatements ++ .phrase .typeDeclaration :: others) := ⟨_, rfl⟩
  have hstatement : Finds grammar _ (.phrase .statement) [] (c.head ++ c.afterHead tail)
      (some ([c.tree], tail)) :=
    Finds.phrase (hothers ▸ Finds.any_append hkeyword (Finds.any_cons htype))
  have hlength : Grammar.keywordStatements.length = 15 := rfl
  exact (Finds.any_append hmethod (Finds.any_cons hstatement)).mono
    (by simp only [List.length_singleton]; omega)

theorem length_parts_le (parts : List MemberReading) :
    parts.length ≤ (parts.flatMap MemberReading.lexemes).length := by
  induction parts with
  | nil => exact Nat.le_refl 0
  | cons p parts ih =>
      have hpos : 0 < p.lexemes.length := List.length_pos_of_ne_nil p.nonempty
      simp only [List.flatMap_cons, List.length_append, List.length_cons]
      omega

/-- **A class is read member by member.** -/
theorem readProgram_eq {last : Lexeme} (hlast : (Mould.fixed .finish "").Fits last) :
    (readProgram (c.head ++ c.afterHead [last])).found? = some ([c.tree], []) := by
  have hclass : Finds grammar _ (.phrase .topLevel) [] (c.head ++ c.afterHead [last])
      (some ([c.tree], [last])) := Finds.phrase (c.finds_topLevel [last])
  have hnone := misses_of_answer (show Rule.answer grammar 200 Grammar.topLevel []
    (holes [.fixed .finish ""]) = .missed from rfl) (.cons hlast .nil) []
  have hmany : Finds grammar _ (.many (.phrase .topLevel)) [] (c.head ++ c.afterHead [last])
      (some ([c.tree], [last])) :=
    Finds.many_cons hclass (Finds.many_nil (Finds.phrase_none hnone))
  have hprogram : Finds grammar _ (.phrase .program) [] (c.head ++ c.afterHead [last])
      (some ([c.tree], [])) :=
    Finds.phrase (Finds.all_cons hmany (Finds.all_cons (finds_finish hlast) Finds.all_nil))
  have hlength := length_parts_le c.parts
  refine hprogram _ ?_
  simp only [readingFuel, afterHead, List.length_append, List.length_cons, List.length_nil]
  omega

end ClassReading

/-! ## The model of a class -/

theorem Member.listOfTrees_append (ts us : List Tree) :
    listOfTrees (ts ++ us) = listOfTrees ts ++ listOfTrees us := by
  induction ts with
  | nil => rfl
  | cons t ts ih => rw [List.cons_append, listOfTrees, listOfTrees, ih, List.append_assoc]

theorem Tree.anyBroken_append (ts us : List Tree) : anyBroken (ts ++ us) = (anyBroken ts || anyBroken us) := by
  induction ts with
  | nil => rfl
  | cons t ts ih => rw [List.cons_append, anyBroken, anyBroken, ih, Bool.or_assoc]

namespace ClassReading

variable (c : ClassReading)

theorem listOfTrees_bodyLeaves :
    Member.listOfTrees c.bodyLeaves = Member.listOfTrees (c.parts.map MemberReading.tree) := by
  rw [bodyLeaves, List.cons_append, Member.listOfTrees, Member.listOfTrees_append]
  exact List.append_nil _

theorem listOfProgram_eq :
    TypeDecl.listOfProgram (programNode [c.tree]) =
      [⟨(lexemeAt c.head 1).text, .ordinary, (lexemeAt c.head 0).line,
        Member.listOfTrees (c.parts.map MemberReading.tree)⟩] := by
  rw [← listOfTrees_bodyLeaves]
  rfl

theorem isBroken_eq :
    (programNode [c.tree]).isBroken = Tree.anyBroken (c.parts.map MemberReading.tree) := by
  have hbody : Tree.anyBroken c.bodyLeaves = Tree.anyBroken (c.parts.map MemberReading.tree) := by
    rw [bodyLeaves, List.cons_append, Tree.anyBroken, Tree.anyBroken_append]
    exact Bool.or_false _
  simp only [programNode, tree, Tree.isBroken, Tree.anyBroken, hbody]
  exact (Bool.or_false _).trans (Bool.or_false _)

end ClassReading

/-! ## The text of a class -/

/-- What stands before the members of a class of this name. -/
def headText (name : String) : String := "class " ++ name ++ " \x7b"

/-- The text of a class with these members, with blanks between them. -/
def classText (gap : Nat → String) (name : String) (pieces : List Piece) : String :=
  layOut gap (headText name :: pieces.map Piece.text ++ [rightBrace])

theorem IsFreeName.isWordText {name : String} (hname : IsFreeName name) : isWordText name = true := by
  obtain ⟨c, cs, hletters, hc, hcs⟩ := hname.letters
  have hparts : ∀ d ∈ cs, isIdentifierPart d = true := by
    intro d hd
    rcases Bool.or_eq_true_iff.mp (List.all_eq_true.mp hcs d hd) with hd | hd
    · simp [isIdentifierPart, isIdentifierStart, hd]
    · simp [isIdentifierPart, hd]
  have hstart : isIdentifierStart c = true := by simp [isIdentifierStart, hc]
  rw [AccessorScan.isWordText, hletters]
  exact Bool.and_eq_true_iff.mpr ⟨hstart, List.all_eq_true.mpr hparts⟩

/-- A text is cut as it is spelled out. -/
theorem cutsAs_of_spelled {text : String} {moulds : List Mould} (spelled : String → List Written)
    (hchars : ∀ gap, (spelled gap).flatMap Written.chars = gap.toList ++ text.toList)
    (hmoulds : ∀ gap, (spelled gap).map Written.mould = moulds)
    (hsound : ∀ gap, IsBlankText gap → ∀ w ∈ spelled gap, w.IsSound)
    (hapart : ∀ gap, areApart (spelled gap) = true) : CutsAs text moulds := by
  intro gap hgap cs others hcuts
  rw [← hchars, ← hmoulds gap]
  exact hcuts.append (hsound gap hgap) (hapart gap)

theorem cutsAs_headText {name : String} (hname : IsFreeName name) :
    CutsAs (headText name) (headMoulds (.fixed .word name)) := by
  refine cutsAs_of_spelled (fun gap => [.word gap "class", .word " " name, .mark " " '\x7b'])
    (fun gap => ?_) (fun gap => rfl) (fun gap hgap => ?_) (fun gap => rfl)
  · simp [Written.chars, Written.blank, Written.text, headText]
  · simp only [List.forall_mem_cons]
    exact ⟨⟨hgap, rfl⟩, ⟨rfl, hname.isWordText⟩, ⟨rfl, rfl⟩, List.forall_mem_nil _⟩

theorem cutsAs_rightBrace : CutsAs rightBrace [.fixed .mark rightBrace] := by
  refine cutsAs_of_spelled (fun gap => [.mark gap '\x7d']) (fun gap => ?_) (fun gap => rfl) (fun gap hgap => ?_)
    (fun gap => rfl)
  · simp [Written.chars, Written.blank, Written.text, rightBrace]
  · exact List.forall_mem_singleton.mpr ⟨hgap, rfl⟩

theorem forall₂_append {α β : Type} {R : α → β → Prop} {as bs : List α} {cs : List β}
    (h : List.Forall₂ R (as ++ bs) cs) :
    ∃ first rest, cs = first ++ rest ∧ List.Forall₂ R as first ∧ List.Forall₂ R bs rest :=
  ⟨cs.take as.length, cs.drop as.length, (List.take_append_drop _ cs).symm,
    (List.forall₂_take_append cs as bs h.flip).flip, (List.forall₂_drop_append cs as bs h.flip).flip⟩

/-- Lexemes of the moulds of pieces are read as one member after the other. -/
theorem exists_readings {pieces : List Piece} (hpieces : ∀ p ∈ pieces, p.IsSound) {ls : List Lexeme}
    (hfits : List.Forall₂ Mould.Fits (pieces.flatMap Piece.moulds) ls) :
    ∃ parts : List MemberReading, parts.flatMap MemberReading.lexemes = ls ∧
      Tree.anyBroken (parts.map MemberReading.tree) = false ∧
      List.Forall₂ Piece.Yields pieces (Member.listOfTrees (parts.map MemberReading.tree)) := by
  induction pieces generalizing ls with
  | nil =>
      cases hfits
      exact ⟨[], rfl, rfl, .nil⟩
  | cons p pieces ih =>
      obtain ⟨hp, hpieces⟩ := List.forall_mem_cons.mp hpieces
      rw [List.flatMap_cons] at hfits
      obtain ⟨first, rest, rfl, hfirst, hrest⟩ := forall₂_append hfits
      obtain ⟨r, line, rfl, hlist, hbroken⟩ := hp.declares first hfirst
      obtain ⟨parts, rfl, hparts, hmembers⟩ := ih hpieces hrest
      refine ⟨r :: parts, List.flatMap_cons, ?_, ?_⟩
      · rw [List.map_cons, Tree.anyBroken, hbroken, hparts]
        rfl
      · rw [List.map_cons, Member.listOfTrees, hlist]
        exact .cons ⟨line, rfl⟩ hmembers

/-- A class with sound members has no order mark at its front. -/
theorem withoutOrderMark_layOut {gap : Nat → String} (hgap : IsBlankText (gap 0)) {piece : String}
    {c : Char} {cs : List Char} (hpiece : piece.toList = c :: cs) (hc : c.toNat ≠ 0xFEFF)
    (pieces : List String) :
    withoutOrderMark (layOut gap (piece :: pieces)).toList = (layOut gap (piece :: pieces)).toList := by
  rw [layOut, String.toList_append, String.toList_append, hpiece]
  cases hgaps : (gap 0).toList with
  | nil => simp [withoutOrderMark, hc]
  | cons b bs =>
      have hb : isBlankChar b = true := List.all_eq_true.mp hgap b (hgaps ▸ List.mem_cons_self)
      have hmark : b.toNat ≠ 0xFEFF := of_isBlankChar (P := fun b => b.toNat ≠ 0xFEFF) (by decide) hb
      simp [withoutOrderMark, hmark]

/-- A source that is read needs no repair. -/
theorem syntaxTree_eq_of_found {source : String} {ts : List Tree} {l : List Lexeme}
    (h : (readProgram (lexemes source)).found? = some (ts, l)) : syntaxTree source = programNode ts := by
  unfold syntaxTree
  simp only
  split
  next hfound =>
      obtain ⟨rfl, -⟩ := Prod.mk.inj (Option.some.inj (hfound.symm.trans h))
      rfl
  next hfound => exact absurd (hfound.symm.trans h) (Option.some_ne_none _).symm

/-- **The model of a class that is written piece by piece.** Its members are what the pieces declare, in their
    order, and the source is not broken. -/
theorem ofSource_classText {pieces : List Piece} (hpieces : ∀ p ∈ pieces, p.IsSound) {name : String}
    (hname : IsFreeName name) {gap : Nat → String} (hgap : ∀ n, IsBlankText (gap n)) :
    ∃ line members, SourceModel.ofSource (classText gap name pieces) =
        ⟨[⟨name, .ordinary, line, members⟩], false⟩ ∧
      List.Forall₂ Piece.Yields pieces members := by
  have hspelled : List.Forall₂ CutsAs (headText name :: pieces.map Piece.text ++ [rightBrace])
      (headMoulds (.fixed .word name) :: pieces.map Piece.moulds ++ [[.fixed .mark rightBrace]]) := by
    have hmiddle : List.Forall₂ CutsAs (pieces.map Piece.text) (pieces.map Piece.moulds) :=
      List.forall₂_map_left_iff.mpr (List.forall₂_map_right_iff.mpr
        (List.forall₂_same.mpr fun p hp => (hpieces p hp).cuts))
    exact List.rel_append (.cons (cutsAs_headText hname) hmiddle) (.cons cutsAs_rightBrace .nil)
  have hfirst : (headText name).toList = 'c' :: ("lass ".toList ++ name.toList ++ " \x7b".toList) := by
    simp [headText]
  have hcuts : Cuts (classText gap name pieces).toList (headMoulds (.fixed .word name) ++
      (pieces.flatMap Piece.moulds ++ [.fixed .mark rightBrace, .fixed .finish ""])) := by
    simpa [classText, List.flatMap] using cuts_layOut hspelled hgap
  have hfits : List.Forall₂ Mould.Fits _ (lexemes (classText gap name pieces)) :=
    forall₂_lexemes (withoutOrderMark_layOut (hgap 0) hfirst (by decide) _) hcuts
  obtain ⟨head, rest, hlexemes, hhead, hfits⟩ := forall₂_append hfits
  obtain ⟨middle, last, rfl, hmiddle, hlast⟩ := forall₂_append hfits
  obtain ⟨parts, rfl, hbroken, hmembers⟩ := exists_readings hpieces hmiddle
  obtain ⟨closing, _, hclosing, hend, rfl⟩ := List.forall₂_cons_left_iff.mp hlast
  obtain ⟨last, _, hfinish, hnil, rfl⟩ := List.forall₂_cons_left_iff.mp hend
  obtain rfl := List.forall₂_nil_left_iff.mp hnil
  have hcovers : List.Forall₂ Mould.Covers (headMoulds .name) (headMoulds (.fixed .word name)) :=
    .cons (Mould.covers_refl _) (.cons (Mould.covers_name hname) (.cons (Mould.covers_refl _) .nil))
  let c : ClassReading := ⟨head, parts, closing, forall₂_fits_of_covers hcovers hhead, hclosing⟩
  have htree : syntaxTree (classText gap name pieces) = programNode [c.tree] := by
    refine syntaxTree_eq_of_found (l := []) ?_
    rw [hlexemes]
    exact c.readProgram_eq hfinish
  have hnamed : (lexemeAt c.head 1).text = name := text_lexemeAt hhead rfl
  refine ⟨(lexemeAt c.head 0).line, _, ?_, hmembers⟩
  rw [SourceModel.ofSource, SourceModel.ofTree, htree, c.listOfProgram_eq, c.isBroken_eq, hbroken, hnamed]

end AccessorScan
