import AccessorScan.Proofs.Building
import AccessorScan.Proofs.Contents
import AccessorScan.Proofs.Spelling

/-!
# `Proofs.Lines` — the lines that the model records

A node starts where its first leaf does, and in an unbroken source that leaf is on the line that it says. So
types, methods and constructors are on the lines of their declarations and fields on those of their
declarators. The fields for the components of a record are not on lines of their own: all of them are on the
line on which the list of the components starts.

## Contents
- `Tree.blank`, `Tree.StandsBehind`, `StartsOnLine`: where a tree stands in a source.
- `startsOnLine_line`: the line of a tree is the one on which it starts.
- `Tree.lineNodes`, `RecordsLine`, `RecordsLines`: the nodes that members take their lines from.
- `lines_recorded`, `components_share_line`.
-/

namespace AccessorScan

/-! ## Where a tree stands -/

namespace Tree

mutual

/-- The blanks before the first character of a tree. -/
def blank : Tree → String
  | leaf _ t => t.blank
  | node _ _ cs => blankAll cs

def blankAll : List Tree → String
  | [] => ""
  | t :: _ => t.blank

end

/-- The tree `s` is the tree `t` or stands in it, and its first character stands behind this part of what `t`
    covers. -/
inductive StandsBehind (s : Tree) : Tree → String → Prop where
  | self : StandsBehind s s s.blank
  | inside {role : Option Role} {kind : String} {front back : List Tree} {c : Tree} {before : String}
      (h : StandsBehind s c before) :
      StandsBehind s (node role kind (front ++ c :: back)) (coveredAll front ++ before)

end Tree

/-- In the tree of the source the tree `s` stands at one place at least, and before its first character at any
    such place one line after the other ends until the line `n` is reached. -/
structure StartsOnLine (source : String) (s : Tree) (n : Nat) : Prop where
  stands : ∃ before, s.StandsBehind (syntaxTree source) before
  line : ∀ before, s.StandsBehind (syntaxTree source) before → n = 1 + before.toList.count '\n'
  source : ∀ before, s.StandsBehind (syntaxTree source) before →
    ∃ mark after, (mark = "" ∨ mark = orderMark) ∧ source = mark ++ before ++ s.text ++ after

namespace Tree

/-- A tree that has a first leaf starts with it. -/
theorem exists_first {t : Tree} (h : t.everywhere isFilled = true) :
    ∃ x rest, t.tokens = x :: rest ∧ t.line = x.line ∧ t.blank = x.blank ∧
      t.text = x.text ++ spelled rest := by
  induction t using children_induction with
  | step t ih =>
      cases t with
      | leaf role token => exact ⟨token, [], rfl, rfl, rfl, (String.append_empty).symm⟩
      | node role kind cs =>
          obtain ⟨hne, hinside⟩ := inside_of_filled h
          cases cs with
          | nil => exact absurd rfl hne
          | cons c cs =>
              obtain ⟨x, rest, htokens, hline, hblank, htext⟩ :=
                ih c List.mem_cons_self (hinside c List.mem_cons_self)
              refine ⟨x, rest ++ tokensAll cs, ?_, hline, hblank, ?_⟩
              · rw [tokens, tokensAll, htokens, List.cons_append]
              · rw [text, textAll, htext, coveredAll_eq, spelled_append, String.append_assoc]

/-- Before and behind a tree stand other leaves. -/
theorem StandsBehind.exists_tokens {s t : Tree} {before : String} (h : s.StandsBehind t before) :
    ∃ front back, t.tokens = front ++ s.tokens ++ back ∧ before = spelled front ++ s.blank := by
  induction h with
  | self => exact ⟨[], [], by simp, by rw [spelled, String.empty_append]⟩
  | @inside role kind ts us c before _ ih =>
      obtain ⟨front, back, hc, rfl⟩ := ih
      refine ⟨tokensAll ts ++ front, back ++ tokensAll us, ?_, ?_⟩
      · rw [tokens, tokensAll_append, tokensAll, hc]
        simp only [List.append_assoc]
      · rw [coveredAll_eq, spelled_append, String.append_assoc]

theorem exists_standsBehind {s t : Tree} (h : s.Within t) : ∃ before, s.StandsBehind t before := by
  induction h with
  | self => exact ⟨_, .self⟩
  | @child c t hc _ ih =>
      obtain ⟨before, hbefore⟩ := ih
      obtain ⟨front, back, hchildren⟩ := List.append_of_mem hc
      cases t with
      | leaf role token => cases hc
      | node role kind cs =>
          obtain rfl : cs = front ++ c :: back := hchildren
          exact ⟨_, .inside hbefore⟩

end Tree

/-- **Lines.** In an unbroken source a tree starts on the line that it says. -/
theorem startsOnLine_line {source : String} (h : (syntaxTree source).isBroken = false) {s c : Tree}
    (hc : c ∈ (syntaxTree source).children) (hs : s.Within c) : StartsOnLine source s s.line := by
  obtain ⟨ts, hts, hlined, mark, after, hmark, hsource⟩ := syntaxTree_spells h
  obtain ⟨x, rest, htokens, hline, hblank, htext⟩ :=
    Tree.exists_first (hs.everywhere (syntaxTree_filled source c hc))
  have hplace : ∀ before, s.StandsBehind (syntaxTree source) before →
      ∃ front back, Tree.tokensAll ts = front ++ (x :: rest) ++ back ∧
        before = spelled front ++ x.blank := by
    intro before hbefore
    obtain ⟨front, back, hall, hbehind⟩ := hbefore.exists_tokens
    rw [hts, htokens] at hall
    rw [hblank] at hbehind
    exact ⟨front, back, hall, hbehind⟩
  refine ⟨Tree.exists_standsBehind (.trans hs (.child hc .self)), fun before hbefore => ?_,
    fun before hbefore => ?_⟩
  · obtain ⟨front, back, hall, rfl⟩ := hplace before hbefore
    rw [hall, List.append_assoc, linedFrom_append] at hlined
    have hx : x.line = 1 + breaks (spelled front) + breaks x.blank := hlined.2.1
    rw [hline, hx, Nat.add_assoc, ← breaks_append]
    rfl
  · obtain ⟨front, back, hall, rfl⟩ := hplace before hbefore
    refine ⟨mark, spelled back ++ after, hmark, ?_⟩
    rw [Tree.coveredAll_eq, hall, spelled_append, spelled_append, spelled] at hsource
    rw [htext]
    simpa only [String.append_assoc] using hsource

/-- A tree starts on one line only. -/
theorem StartsOnLine.unique {source : String} {s : Tree} {m n : Nat} (hm : StartsOnLine source s m)
    (hn : StartsOnLine source s n) : m = n := by
  obtain ⟨before, hbefore⟩ := hm.stands
  rw [hm.line before hbefore, hn.line before hbefore]

/-- What is on the lines on which some trees start is on the lines of these trees. -/
theorem map_line_eq {source : String} {α : Type} {lineOf : α → Nat} {ts : List Tree} {xs : List α}
    (h : List.Forall₂ (fun t x => StartsOnLine source t (lineOf x)) ts xs)
    (hts : ∀ t ∈ ts, StartsOnLine source t t.line) : xs.map lineOf = ts.map Tree.line := by
  induction h with
  | nil => rfl
  | @cons t x ts xs ht _ ih =>
      rw [List.map_cons, List.map_cons, ih fun c hc => hts c (List.mem_cons_of_mem t hc),
        ht.unique (hts t List.mem_cons_self)]

/-! ## Lines one after the other -/

theorem le_of_linedFrom {n : Nat} {ts : List Token} (h : LinedFrom n ts) : ∀ t ∈ ts, n ≤ t.line := by
  induction ts generalizing n with
  | nil => exact nofun
  | cons t ts ih =>
      obtain ⟨hline, hrest⟩ := h
      intro x hx
      rcases List.mem_cons.mp hx with rfl | hx
      · omega
      · have hlater := ih hrest x hx
        omega

/-- The lines of leaves do not decrease. -/
theorem pairwise_of_linedFrom {n : Nat} {ts : List Token} (h : LinedFrom n ts) :
    ts.Pairwise fun x y => x.line ≤ y.line := by
  induction ts generalizing n with
  | nil => exact .nil
  | cons t ts ih =>
      obtain ⟨hline, hrest⟩ := h
      refine .cons (fun x hx => ?_) (ih hrest)
      have hlater := le_of_linedFrom hrest x hx
      rw [breaks_append] at hlater
      omega

namespace Tree

theorem tokensAll_eq_flatMap (ts : List Tree) : tokensAll ts = ts.flatMap tokens := by
  induction ts with
  | nil => rfl
  | cons t ts ih => rw [tokensAll, ih, List.flatMap_cons]

theorem tokensAll_flatMap_sublist {f : Tree → List Tree} (h : ∀ t, (tokensAll (f t)).Sublist t.tokens)
    (ts : List Tree) : (tokensAll (ts.flatMap f)).Sublist (tokensAll ts) := by
  induction ts with
  | nil => exact .slnil
  | cons t ts ih =>
      rw [List.flatMap_cons, tokensAll_append, tokensAll]
      exact (h t).append ih

/-- Some of the children have some of the leaves. -/
theorem tokensAll_filter_sublist (p : Tree → Bool) (ts : List Tree) :
    (tokensAll (ts.filter p)).Sublist (tokensAll ts) := by
  induction ts with
  | nil => exact .slnil
  | cons t ts ih =>
      rw [tokensAll, List.filter_cons]
      split
      · rw [tokensAll]
        exact ih.append_left t.tokens
      · exact ih.trans (List.sublist_append_right t.tokens _)

theorem tokensAll_children_sublist (t : Tree) : (tokensAll t.children).Sublist t.tokens := by
  cases t with
  | leaf role token => exact List.nil_sublist _
  | node role kind cs => exact .refl _

mutual

theorem tokensAll_memberNodes_sublist : ∀ t : Tree, (tokensAll t.memberNodes).Sublist t.tokens
  | leaf role token => by
      rw [memberNodes]
      split
      · exact .refl _
      · exact List.nil_sublist _
  | node role kind cs => by
      rw [memberNodes]
      split
      · exact tokensAll_memberNodesIn_sublist cs
      · split
        · exact List.nil_sublist _
        · rw [tokensAll, tokensAll, List.append_nil]

theorem tokensAll_memberNodesIn_sublist :
    ∀ ts : List Tree, (tokensAll (memberNodesIn ts)).Sublist (tokensAll ts)
  | [] => .slnil
  | t :: ts => by
      rw [memberNodesIn, tokensAll_append, tokensAll]
      exact (tokensAll_memberNodes_sublist t).append (tokensAll_memberNodesIn_sublist ts)

end

theorem tokens_sublist_of_mem {t c : Tree} (hc : c ∈ t.children) : c.tokens.Sublist t.tokens := by
  obtain ⟨front, back, hchildren⟩ := List.append_of_mem hc
  have hall : c.tokens.Sublist (tokensAll t.children) := by
    rw [hchildren, tokensAll_append, tokensAll]
    exact (List.sublist_append_left _ _).trans (List.sublist_append_right _ _)
  exact hall.trans (tokensAll_children_sublist t)

theorem Within.tokens_sublist {s t : Tree} (h : s.Within t) : s.tokens.Sublist t.tokens := by
  induction h with
  | self => exact .refl _
  | child hc _ ih => exact ih.trans (tokens_sublist_of_mem hc)

/-- The members of a type have leaves of its own, in their order. -/
theorem tokensAll_declaredMembers_sublist (t : Tree) :
    (tokensAll t.declaredMembers).Sublist t.tokens := by
  rw [declaredMembers]
  cases hbody : t.part? .body with
  | none => exact List.nil_sublist _
  | some body =>
      have hmembers := tokensAll_memberNodesIn_sublist body.children
      exact (hmembers.trans (tokensAll_children_sublist body)).trans (tokens_sublist_of_mem (mem_of_part? hbody))

/-- Where the lines of leaves do not decrease, the lines of trees do not. -/
theorem pairwise_line {ts : List Tree} (hfilled : ∀ t ∈ ts, t.everywhere isFilled = true)
    (h : (tokensAll ts).Pairwise fun x y => x.line ≤ y.line) :
    (ts.map line).Pairwise (· ≤ ·) := by
  induction ts with
  | nil => exact .nil
  | cons t ts ih =>
      obtain ⟨-, hrest, hbetween⟩ := List.pairwise_append.mp h
      obtain ⟨x, _, htokens, hline, -⟩ := exists_first (hfilled t List.mem_cons_self)
      rw [List.map_cons, List.pairwise_cons]
      refine ⟨fun n hn => ?_, ih (fun c hc => hfilled c (List.mem_cons_of_mem t hc)) hrest⟩
      obtain ⟨c, hc, rfl⟩ := List.mem_map.mp hn
      obtain ⟨y, _, hctokens, hcline, -⟩ := exists_first (hfilled c (List.mem_cons_of_mem t hc))
      rw [hline, hcline]
      refine hbetween x (by rw [htokens]; exact List.mem_cons_self) y ?_
      rw [tokensAll_eq_flatMap]
      exact List.mem_flatMap.mpr ⟨c, hc, by rw [hctokens]; exact List.mem_cons_self⟩

/-! ## The nodes that lines come from -/

/-- The nodes on whose lines the members are that a member node makes. -/
def lineNodes (t : Tree) : List Tree :=
  if t.kind = "field_declaration" ∨ t.kind = "constant_declaration" then t.parts .declarator
  else if t.isCallable || t.isModelled then [t] else []

theorem tokensAll_lineNodes_sublist (t : Tree) : (tokensAll t.lineNodes).Sublist t.tokens := by
  unfold lineNodes
  split
  · exact (tokensAll_filter_sublist _ t.children).trans (tokensAll_children_sublist t)
  · split
    · rw [tokensAll, tokensAll, List.append_nil]
    · exact List.nil_sublist _

theorem within_of_mem_lineNodes {t n : Tree} (h : n ∈ t.lineNodes) : n.Within t := by
  unfold lineNodes at h
  split at h
  · exact .child (List.mem_filter.mp h).1 .self
  · split at h
    · obtain rfl := List.mem_singleton.mp h
      exact .self
    · cases h

theorem within_of_mem_memberLines {t n : Tree} (h : n ∈ t.declaredMembers.flatMap lineNodes) :
    n.Within t := by
  obtain ⟨m, hm, hn⟩ := List.mem_flatMap.mp h
  exact (within_of_mem_lineNodes hn).trans (within_of_mem_declaredMembers hm)

theorem within_of_mem_parameterNodes {t c : Tree} (h : c ∈ t.parameterNodes) : c.Within t := by
  rw [parameterNodes] at h
  cases hlist : t.part? .parameters with
  | none => simp [hlist] at h
  | some list =>
      rw [hlist] at h
      have hc := mem_of_mem_namedChildren (List.mem_filter.mp h).1
      exact .child (mem_of_part? hlist) (.child hc .self)

end Tree

/-- Something that is in the model with a line. -/
def Member.hasLine : Member → Bool
  | .other _ => false
  | _ => true

/-- The member is on the line on which the node starts. A type is the model of the node. -/
structure RecordsLine (source : String) (n : Tree) (m : Member) : Prop where
  line : StartsOnLine source n m.line
  type : ∀ d, m = .type d → TypeDecl.ofTree? n = some d

/-- The component of the declaration `t` makes a field on the line on which the list of components starts. -/
structure RecordsComponent (source : String) (t c : Tree) (f : Field) : Prop where
  name : c.parameterName? = some f.name
  line : ∃ list, t.part? .parameters = some list ∧ StartsOnLine source list f.line

/-- The model `d` of the declaration `t` is on its line. Of its members the fields for components come first,
    all on one line. Those from the body are on the lines of their nodes, which do not decrease. -/
structure RecordsLines (source : String) (t : Tree) (d : TypeDecl) : Prop where
  model : TypeDecl.ofTree? t = some d
  own : StartsOnLine source t d.line
  members : ∃ components body, d.members = components.map Member.field ++ body ∧
    List.Forall₂ (RecordsComponent source t) t.parameterNodes components ∧
    List.Forall₂ (RecordsLine source) (t.declaredMembers.flatMap Tree.lineNodes)
      (body.filter Member.hasLine) ∧
    ((body.filter Member.hasLine).map Member.line).Pairwise (· ≤ ·)

/-! ## The lines of members -/

section Members

variable {source : String} {t : Tree}
  (hline : ∀ {s : Tree}, s.Within t → StartsOnLine source s s.line)

include hline

/-- The declarators of a declaration and its fields. -/
theorem recordsLine_fields {implied : List Modifier} (hdeclarations : t.FitsDeclarations)
    (hfits : t.FitsGrammar) :
    List.Forall₂ (RecordsLine source) (t.parts .declarator)
      (((Field.listOfTree t implied).map Member.field).filter Member.hasLine) := by
  have hfields : ((Field.listOfTree t implied).map Member.field).filter Member.hasLine =
      (Field.listOfTree t implied).map Member.field := by
    refine List.filter_eq_self.mpr fun m hm => ?_
    obtain ⟨f, -, rfl⟩ := List.mem_map.mp hm
    rfl
  rw [hfields, List.forall₂_map_right_iff]
  have hmakes := Tree.forall₂_listOfTree hdeclarations hfits implied
  have hparts : ∀ d ∈ t.parts .declarator, d.Within t := fun d hd => .child (List.mem_filter.mp hd).1 .self
  generalize t.parts .declarator = ds, Field.listOfTree t implied = fs at hmakes hparts ⊢
  induction hmakes with
  | nil => exact .nil
  | @cons d f ds fs h _ ih =>
      refine .cons ⟨?_, nofun⟩ (ih fun x hx => hparts x (List.mem_cons_of_mem d hx))
      show StartsOnLine source d f.line
      rw [h.line]
      exact hline (hparts d List.mem_cons_self)

/-- The members that a member node makes. -/
theorem recordsLine_ofNode (hdeclarations : t.FitsDeclarations) (hfits : t.FitsGrammar) :
    List.Forall₂ (RecordsLine source) t.lineNodes ((Member.ofNode t).filter Member.hasLine) := by
  have hmade := Member.madeOf_ofNode t
  generalize Member.ofNode t = ms at hmade ⊢
  cases hmade with
  | @type d hd =>
      have hmodelled : t.isModelled = true := by rw [← TypeDecl.ofTree?_isSome, hd]; rfl
      have hlineNodes : t.lineNodes = [t] := by
        rw [Tree.lineNodes, hmodelled, Bool.or_true, if_pos rfl, if_neg]
        rcases TypeKind.mem_declarationKinds.mp (TypeDecl.kind_mem_of_ofTree? hd) with hk | hk | hk | hk <;>
          simp [hk]
      rw [hlineNodes]
      refine .cons ⟨?_, fun e he => ?_⟩ .nil
      · show StartsOnLine source t d.line
        rw [TypeDecl.line_of_ofTree? hd]
        exact hline .self
      · rw [hd, Member.type.inj he]
  | fields hkind =>
      rw [Tree.lineNodes, if_pos (.inl hkind)]
      exact recordsLine_fields hline hdeclarations hfits
  | constants hkind =>
      rw [Tree.lineNodes, if_pos (.inr hkind)]
      exact recordsLine_fields hline hdeclarations hfits
  | callable hcallable =>
      have hlineNodes : t.lineNodes = [t] := by
        rw [Tree.lineNodes, hcallable, Bool.true_or, if_pos rfl, if_neg]
        rintro (hkind | hkind) <;> simp [Tree.isCallable, hkind] at hcallable
      rw [hlineNodes, Member.ofCallable]
      split <;> exact .cons ⟨hline .self, by simp⟩ .nil
  | comment hcomment =>
      have hlineNodes : t.lineNodes = [] := by
        rw [Tree.isComment, Bool.or_eq_true, beq_iff_eq, beq_iff_eq] at hcomment
        rcases hcomment with hkind | hkind <;>
          simp [Tree.lineNodes, Tree.isCallable, Tree.isModelled, hkind, TypeKind.ofDeclaration?]
      rw [hlineNodes]
      exact .nil
  | other hmodelled hfields hcallable =>
      rw [Tree.lineNodes, if_neg hfields, hcallable, hmodelled]
      exact .nil

/-- The components of a record and their fields. -/
theorem recordsComponent_listOfComponents (hfits : t.FitsGrammar) :
    List.Forall₂ (RecordsComponent source t) t.parameterNodes (Field.listOfComponents t) := by
  rw [Tree.parameterNodes, Field.listOfComponents]
  cases hlist : t.part? .parameters with
  | none => exact .nil
  | some list =>
      have hlistLine := hline (.child (Tree.mem_of_part? hlist) .self)
      have hparameters := Parameter.forall₂_filterMap fun c hc =>
        (hfits.part? hlist).child (Tree.mem_of_mem_namedChildren hc)
      exact List.forall₂_map_right_iff.mpr
        (hparameters.imp fun c p hp => ⟨hp, list, hlist, hlistLine⟩)

end Members

section Declared

variable {source : String} (h : (syntaxTree source).isBroken = false) {path : List String} {t : Tree}
  (ht : DeclaredIn (syntaxTree source) path t)

include h ht

theorem startsOnLine_within {s : Tree} (hs : s.Within t) : StartsOnLine source s s.line := by
  obtain ⟨c, hc, htc⟩ := ht.exists_child_within
  exact startsOnLine_line h hc (hs.trans htc)

/-- The members from the body of a declared type. -/
theorem recordsLine_members :
    List.Forall₂ (RecordsLine source) (t.declaredMembers.flatMap Tree.lineNodes)
      ((t.declaredMembers.flatMap Member.ofNode).filter Member.hasLine) := by
  have hgrammar := ht.within.everywhere (syntaxTree_fitsGrammar source)
  have hdeclarations := ht.within.everywhere (syntaxTree_fitsDeclarations source)
  rw [List.filter_flatMap]
  have hsame : List.Forall₂ (fun n m => n = m ∧ n ∈ t.declaredMembers) t.declaredMembers
      t.declaredMembers := List.forall₂_same.mpr fun n hn => ⟨rfl, hn⟩
  refine List.rel_flatMap hsame ?_
  rintro n _ ⟨rfl, hn⟩
  have hwithin := Tree.within_of_mem_declaredMembers hn
  exact recordsLine_ofNode (fun hs => startsOnLine_within h ht (hs.trans hwithin))
    (hwithin.everywhere hdeclarations) (hwithin.everywhere hgrammar)

/-- The nodes that the members from the body take their lines from stand one after the other. -/
theorem pairwise_memberLines :
    ((t.declaredMembers.flatMap Tree.lineNodes).map Tree.line).Pairwise (· ≤ ·) := by
  obtain ⟨c, hc, htc⟩ := ht.exists_child_within
  obtain ⟨ts, hts, hlined, -⟩ := syntaxTree_spells h
  have hroot : (syntaxTree source).tokens.Pairwise fun x y => x.line ≤ y.line := by
    rw [hts]
    exact pairwise_of_linedFrom hlined
  have hmembers := (Tree.tokensAll_flatMap_sublist Tree.tokensAll_lineNodes_sublist
    t.declaredMembers).trans (Tree.tokensAll_declaredMembers_sublist t)
  refine Tree.pairwise_line (fun n hn => ?_) (hroot.sublist (hmembers.trans ht.within.tokens_sublist))
  exact ((Tree.within_of_mem_memberLines hn).trans htc).everywhere (syntaxTree_filled source c hc)

theorem recordsLines {d : TypeDecl} (hd : TypeDecl.ofTree? t = some d) : RecordsLines source t d := by
  have hbody := recordsLine_members h ht
  refine ⟨hd, TypeDecl.line_of_ofTree? hd ▸ startsOnLine_within h ht .self, _, _,
    TypeDecl.members_of_ofTree? hd, ?_, hbody, ?_⟩
  · exact recordsComponent_listOfComponents (startsOnLine_within h ht)
      (ht.within.everywhere (syntaxTree_fitsGrammar source))
  · rw [map_line_eq (hbody.imp fun n m hm => hm.line)
      fun n hn => startsOnLine_within h ht (Tree.within_of_mem_memberLines hn)]
    exact pairwise_memberLines h ht

end Declared

/-- **Lines.** In the model of an unbroken source every type, method and constructor at any depth is on the line
    on which its declaration starts, and every field from a body is on the line of its declarator. The fields
    for the components of a record are on the line on which the list of the components starts. No line is
    smaller than that of a member before it in the same body. -/
theorem lines_recorded (source : String) (file : FilePath) (h : (syntaxTree source).isBroken = false) :
    List.Forall₂ (RecordsLines source) ((syntaxTree source).namedChildren.filter Tree.isModelled)
      (Scan.modelOf source file).value.types ∧
    ∀ path t, DeclaredIn (syntaxTree source) path t → ∃ d, RecordsLines source t d := by
  refine ⟨(TypeDecl.forall₂_filterMap_ofTree? _).imp ?_, fun path t ht => ?_⟩
  · rintro t d ⟨ht, hd⟩
    have hmodelled : t.isModelled = true := by rw [← TypeDecl.ofTree?_isSome, hd]; rfl
    exact recordsLines h (.top ht hmodelled) hd
  · obtain ⟨d, hd⟩ := ht.exists_ofTree?
    exact ⟨d, recordsLines h ht hd⟩

/-- A class with two fields in one declaration on two lines, a method behind a comment, and a record whose
    components are on lines of their own. -/
def spreadSource : String :=
  "class A \x7b\n  int a,\n    b;\n  /* c */ @X\n  void f() \x7b\x7d\n  record R(\n    int x,\n    int y) \x7b\x7d\n\x7d"

theorem lines_recorded_spread :
    (syntaxTree spreadSource).isBroken = false ∧
    List.Forall₂ (RecordsLines spreadSource) ((syntaxTree spreadSource).namedChildren.filter Tree.isModelled)
      (Scan.modelOf spreadSource ⟨"A.java"⟩).value.types ∧
    (Scan.modelOf spreadSource ⟨"A.java"⟩).value.types.map (fun d => d.members.map Member.line) =
      [[2, 3, 4, 6]] ∧
    (Scan.modelOf spreadSource ⟨"A.java"⟩).value.types.map (fun d => d.nested.map fun n =>
      n.members.map Member.line) = [[[6, 6]]] := by
  have hwhole : (syntaxTree spreadSource).isBroken = false := by decide +kernel
  exact ⟨hwhole, (lines_recorded spreadSource ⟨"A.java"⟩ hwhole).1, by decide +kernel, by decide +kernel⟩

/-- **Components share one line.** The field for a component is not always on the line on which the component
    starts: two components on different lines make fields on the same one. -/
theorem components_share_line :
    ¬ ∀ (source : String) (path : List String) (t : Tree), (syntaxTree source).isBroken = false →
      DeclaredIn (syntaxTree source) path t →
      List.Forall₂ (fun c (f : Field) => StartsOnLine source c f.line) t.parameterNodes
        (Field.listOfComponents t) := by
  intro hall
  let source := "record R(\n  int a,\n  int b) \x7b\x7d"
  have hwhole : (syntaxTree source).isBroken = false := by decide +kernel
  have hmodelled : ∀ t ∈ (syntaxTree source).namedChildren, t.isModelled = true := by decide +kernel
  have hlines : ∀ t ∈ (syntaxTree source).namedChildren,
      (Field.listOfComponents t).map Field.line = t.parameterNodes.map Tree.line := by
    intro t ht
    have htop : DeclaredIn (syntaxTree source) _ t := .top ht (hmodelled t ht)
    exact map_line_eq (hall source _ t hwhole htop) fun c hc =>
      startsOnLine_within hwhole htop (Tree.within_of_mem_parameterNodes hc)
  have hfields : (syntaxTree source).namedChildren.map
      (fun t => (Field.listOfComponents t).map Field.line) = [[1, 1]] := by decide +kernel
  have hnodes : (syntaxTree source).namedChildren.map
      (fun t => t.parameterNodes.map Tree.line) = [[2, 3]] := by decide +kernel
  rw [List.map_congr_left hlines, hnodes] at hfields
  exact absurd hfields (by decide)

end AccessorScan
