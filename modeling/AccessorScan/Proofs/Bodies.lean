import AccessorScan.Proofs.Classification
import AccessorScan.Proofs.Shape
import Mathlib.Data.List.Basic

/-!
# `Proofs.Bodies` — what a body says, read off its tree

The model of a body drops comments, parentheses and punctuation. Here it is said which trees a
modelled statement comes from: what is left in a block, what is left of an expression without its
parentheses, and when that is a name of a field.

## Contents
- `Tree.blockContent`: what counts in a block.
- `Tree.Unwraps`: an expression and what its parentheses hold.
- `Tree.NamesField`: names of a field of the current object.
- `Tree.ReturnsField`, `Tree.AssignsField`: bodies of accessors.
- `Expression.refers_ofTree_iff`, `Statement.listOfBlock_eq_singleton_iff`, `Tree.returnsField_iff`,
  `Tree.assignsField_iff`.
-/

namespace AccessorScan

namespace Tree

/-- A child of a block that counts: neither a comment nor missing, and a part of its own or a lone
    semicolon. -/
def isStatement (t : Tree) : Bool :=
  !t.isComment && !t.isMissing && (t.kind == ";" || t.isNamed)

/-- What is left of a block. -/
def blockContent (t : Tree) : List Tree := t.children.filter isStatement

/-- The tree `e` is no parentheses and stands in any number of them that make up the tree `t`. -/
inductive Unwraps : Tree → Tree → Prop where
  | bare {e : Tree} (h : e.kind ≠ "parenthesized_expression") : Unwraps e e
  | wrapped {t inner e : Tree} (h : t.kind = "parenthesized_expression")
      (hinner : t.content? = some inner) (he : Unwraps inner e) : Unwraps t e

/-- The tree is the bare name `p`. -/
def IsBareName (t : Tree) (p : String) : Prop := t.kind = "identifier" ∧ t.text = p

/-- The tree is the name `p` qualified by the current object. -/
def IsSelfField (t : Tree) (p : String) : Prop :=
  t.kind = "field_access" ∧ ∃ object field, t.part? .object = some object ∧
    t.part? .field = some field ∧ object.kind = "this" ∧ field.kind = "identifier" ∧ field.text = p

/-- The tree is the name `p`, bare or qualified by the current object. -/
def NamesField (t : Tree) (p : String) : Prop := t.IsBareName p ∨ t.IsSelfField p

end Tree

/-! ## Expressions -/

namespace Expression

variable {t e : Tree} {p : String}

theorem ofFieldAccess_eq_selfField_iff (hkind : t.kind = "field_access") :
    ofFieldAccess t = .selfField p ↔ t.IsSelfField p := by
  unfold ofFieldAccess Tree.IsSelfField
  cases hobject : t.part? .object with
  | none => simp
  | some object =>
      cases hfield : t.part? .field with
      | none => simp
      | some field =>
          by_cases h : object.kind = "this" ∧ field.kind = "identifier"
          · simp [h, hkind]
          · simp only [if_neg h, reduceCtorEq, false_iff]
            rintro ⟨-, o, f, ho, hf, hthis, hident, -⟩
            obtain rfl := Option.some.inj ho
            obtain rfl := Option.some.inj hf
            exact h ⟨hthis, hident⟩

theorem ofFieldAccess_ne_name : ofFieldAccess t ≠ .name p := by
  unfold ofFieldAccess
  split
  · split <;> simp
  · simp

theorem ofBare_eq_name_iff : ofBare t = .name p ↔ t.IsBareName p := by
  unfold ofBare Tree.IsBareName
  by_cases hname : t.kind = "identifier"
  · simp [hname]
  · by_cases haccess : t.kind = "field_access"
    · simp [haccess, ofFieldAccess_ne_name]
    · by_cases hliteral : t.kind ∈ literalKinds <;> simp [hname, haccess, hliteral]

theorem ofBare_eq_selfField_iff : ofBare t = .selfField p ↔ t.IsSelfField p := by
  unfold ofBare
  by_cases hname : t.kind = "identifier"
  · simp [hname, Tree.IsSelfField]
  · by_cases haccess : t.kind = "field_access"
    · rw [if_neg hname, if_pos haccess, ofFieldAccess_eq_selfField_iff haccess]
    · by_cases hliteral : t.kind ∈ literalKinds <;>
        simp [hname, haccess, hliteral, Tree.IsSelfField]

theorem ofParenthesized_eq (ts : List Tree) :
    ofParenthesized ts =
      (((ts.filter Tree.isNamed).find? fun c => !c.isComment).map ofTree).getD
        (.other "parenthesized_expression") := by
  induction ts with
  | nil => simp [ofParenthesized]
  | cons t ts ih =>
      rw [ofParenthesized]
      cases hnamed : t.isNamed with
      | false => simp [hnamed, ih]
      | true => cases hcomment : t.isComment <;> simp [hnamed, hcomment, ih]

/-- Parentheses are what they hold. With nothing in them they are of no use to the detection. -/
theorem ofTree_eq (t : Tree) :
    ofTree t =
      if t.kind = "parenthesized_expression" then
        (t.content?.map ofTree).getD (.other "parenthesized_expression")
      else ofBare t := by
  cases t with
  | leaf role token =>
      rw [ofTree]
      by_cases hkind : (Tree.leaf role token).kind = "parenthesized_expression"
      · -- a leaf holds nothing, and its own kind is all that is said of it
        have hbare : ofBare (.leaf role token) = .other "parenthesized_expression" := by
          simp [ofBare, hkind, literalKinds]
        rw [if_pos hkind, hbare]
        rfl
      · rw [if_neg hkind]
  | node role kind cs => rw [ofTree, ofParenthesized_eq]; rfl

theorem ofTree_bare (h : t.kind ≠ "parenthesized_expression") : ofTree t = ofBare t := by
  rw [ofTree_eq, if_neg h]

theorem ofTree_wrapped {inner : Tree} (hkind : t.kind = "parenthesized_expression")
    (hinner : t.content? = some inner) : ofTree t = ofTree inner := by
  rw [ofTree_eq, if_pos hkind, hinner]
  rfl

theorem ofTree_of_unwraps (h : t.Unwraps e) : ofTree t = ofBare e := by
  induction h with
  | bare h => exact ofTree_bare h
  | wrapped h hinner _ ih => rw [ofTree_wrapped h hinner, ih]

/-- An expression unwraps to something, or its parentheses hold nothing in the end. -/
theorem exists_unwraps_or (t : Tree) :
    (∃ e, t.Unwraps e) ∨ ofTree t = .other "parenthesized_expression" := by
  induction t using Tree.children_induction with
  | step t ih =>
      by_cases hkind : t.kind = "parenthesized_expression"
      · cases hinner : t.content? with
        | none => exact .inr (by rw [ofTree_eq, if_pos hkind, hinner]; rfl)
        | some inner =>
            rcases ih inner (Tree.mem_of_content? hinner) with ⟨e, he⟩ | hother
            · exact .inl ⟨e, .wrapped hkind hinner he⟩
            · exact .inr (by rw [ofTree_wrapped hkind hinner, hother])
      · exact .inl ⟨t, .bare hkind⟩

/-- What can be said of the model of a bare expression can be said of the model of any, after its
    parentheses. -/
theorem ofTree_eq_iff {target : Expression} {Q : Tree → Prop}
    (htarget : target ≠ .other "parenthesized_expression")
    (hbare : ∀ e, ofBare e = target ↔ Q e) : ofTree t = target ↔ ∃ e, t.Unwraps e ∧ Q e := by
  constructor
  · intro h
    rcases exists_unwraps_or t with ⟨e, he⟩ | hother
    · exact ⟨e, he, (hbare e).mp (by rw [← ofTree_of_unwraps he, h])⟩
    · exact absurd (h.symm.trans hother) htarget
  · rintro ⟨e, he, hq⟩
    rw [ofTree_of_unwraps he, (hbare e).mpr hq]

theorem ofTree_eq_name_iff : ofTree t = .name p ↔ ∃ e, t.Unwraps e ∧ e.IsBareName p :=
  ofTree_eq_iff (by simp) fun _ => ofBare_eq_name_iff

theorem ofTree_eq_selfField_iff : ofTree t = .selfField p ↔ ∃ e, t.Unwraps e ∧ e.IsSelfField p :=
  ofTree_eq_iff (by simp) fun _ => ofBare_eq_selfField_iff

theorem refers_ofTree_iff : (ofTree t).Refers p ↔ ∃ e, t.Unwraps e ∧ e.NamesField p := by
  rw [Refers, ofTree_eq_name_iff, ofTree_eq_selfField_iff, ← exists_or]
  exact exists_congr fun e => and_or_left.symm

end Expression

/-! ## Statements -/

namespace Statement

variable {block : Tree}

theorem listOfBlock_eq (block : Tree) :
    listOfBlock block = block.blockContent.map fun c =>
      if c.kind = ";" then .other "empty_statement" else ofTree c := by
  rw [listOfBlock, Tree.blockContent, ← List.filterMap_eq_map, List.filterMap_filter]
  refine List.filterMap_congr fun c _ => ?_
  unfold ofChild? Tree.isStatement
  cases c.isComment <;> cases c.isMissing <;> cases c.isNamed <;> by_cases h : c.kind = ";" <;>
    simp [h]

theorem ofTree_return {c : Tree} (h : c.kind = "return_statement") :
    ofTree c = .result (c.content?.map Expression.ofTree) := by
  simp only [ofTree, h]

theorem ofTree_expression {c : Tree} (h : c.kind = "expression_statement") :
    ofTree c = (c.content?.map ofExpression).getD (.other "expression_statement") := by
  simp only [ofTree, h]
  cases c.content? <;> rfl

theorem ofTree_other {c : Tree} (hreturn : c.kind ≠ "return_statement")
    (hexpression : c.kind ≠ "expression_statement") : ofTree c = .other c.kind := by
  unfold ofTree
  split
  next h => exact absurd h hreturn
  next h => exact absurd h hexpression
  next => rfl

theorem ofExpression_ne_result {c : Tree} {value : Option Expression} :
    ofExpression c ≠ .result value := by
  unfold ofExpression
  split
  · split <;> simp
  · simp

theorem ofExpression_eq_assignment_iff {c : Tree} {target value : Expression} :
    ofExpression c = .assignment target value ↔
      c.kind = "assignment_expression" ∧ c.partText .operator = "=" ∧
        ∃ left right, c.part? .left = some left ∧ c.part? .right = some right ∧
          .ofTree left = target ∧ .ofTree right = value := by
  unfold ofExpression
  by_cases h : c.kind = "assignment_expression" ∧ c.partText .operator = "="
  · rw [if_pos h]
    cases c.part? .left <;> cases c.part? .right <;> simp [h]
  · rw [if_neg h]
    simp only [reduceCtorEq, false_iff]
    rintro ⟨hkind, hoperator, -⟩
    exact h ⟨hkind, hoperator⟩

theorem ofTree_eq_result_iff {c : Tree} {e : Expression} :
    ofTree c = .result (some e) ↔
      c.kind = "return_statement" ∧ ∃ value, c.content? = some value ∧ .ofTree value = e := by
  by_cases hreturn : c.kind = "return_statement"
  · rw [ofTree_return hreturn, result.injEq, Option.map_eq_some_iff]
    simp only [hreturn, true_and]
  · by_cases hexpression : c.kind = "expression_statement"
    · rw [ofTree_expression hexpression]
      cases c.content? <;> simp [hreturn, ofExpression_ne_result]
    · rw [ofTree_other hreturn hexpression]
      simp [hreturn]

theorem ofTree_eq_assignment_iff {c : Tree} {target value : Expression} :
    ofTree c = .assignment target value ↔
      c.kind = "expression_statement" ∧
        ∃ a, c.content? = some a ∧ ofExpression a = .assignment target value := by
  by_cases hexpression : c.kind = "expression_statement"
  · rw [ofTree_expression hexpression]
    cases c.content? <;> simp [hexpression]
  · by_cases hreturn : c.kind = "return_statement"
    · rw [ofTree_return hreturn]
      simp [hexpression]
    · rw [ofTree_other hreturn hexpression]
      simp [hexpression]

/-- A block is modelled by one statement other than a lone semicolon exactly if one tree counts in
    it. -/
theorem listOfBlock_eq_singleton_iff {s : Statement} (hs : s ≠ .other "empty_statement") :
    listOfBlock block = [s] ↔ ∃ c, block.blockContent = [c] ∧ c.kind ≠ ";" ∧ ofTree c = s := by
  rw [listOfBlock_eq, List.map_eq_singleton_iff]
  refine exists_congr fun c => and_congr_right fun _ => ?_
  by_cases h : c.kind = ";"
  · simp [h, hs.symm]
  · simp [h]

end Statement

/-! ## Bodies of accessors -/

namespace Tree

/-- The tree is a block that does nothing but return the field `p`. -/
def ReturnsField (block : Tree) (p : String) : Prop :=
  ∃ c value e, block.blockContent = [c] ∧ c.kind = "return_statement" ∧
    c.content? = some value ∧ value.Unwraps e ∧ e.NamesField p

/-- The tree is a block that does nothing but assign the field `p`, in a method whose parameter is
    named `parameter`. -/
def AssignsField (block : Tree) (parameter p : String) : Prop :=
  ∃ c a left e, block.blockContent = [c] ∧ c.kind = "expression_statement" ∧
    c.content? = some a ∧ a.kind = "assignment_expression" ∧ a.partText .operator = "=" ∧
    a.part? .left = some left ∧ left.Unwraps e ∧
    (e.IsSelfField p ∨ e.IsBareName p ∧ p ≠ parameter)

theorem returnsField_iff {block : Tree} {p : String} :
    block.ReturnsField p ↔
      ∃ e, Statement.listOfBlock block = [.result (some e)] ∧ e.Refers p := by
  constructor
  · rintro ⟨c, value, e, hblock, hkind, hvalue, he, hp⟩
    refine ⟨.ofTree value, ?_, Expression.refers_ofTree_iff.mpr ⟨e, he, hp⟩⟩
    refine (Statement.listOfBlock_eq_singleton_iff (by simp)).mpr ⟨c, hblock, by simp [hkind], ?_⟩
    exact Statement.ofTree_eq_result_iff.mpr ⟨hkind, value, hvalue, rfl⟩
  · rintro ⟨x, hmodel, hx⟩
    obtain ⟨c, hblock, -, hc⟩ := (Statement.listOfBlock_eq_singleton_iff (by simp)).mp hmodel
    obtain ⟨hkind, value, hvalue, rfl⟩ := Statement.ofTree_eq_result_iff.mp hc
    obtain ⟨e, he, hp⟩ := Expression.refers_ofTree_iff.mp hx
    exact ⟨c, value, e, hblock, hkind, hvalue, he, hp⟩

/-- An assignment of the grammar has a right side, whatever it is. -/
theorem assignsField_iff {block : Tree} {parameter p : String} (hfits : block.FitsGrammar) :
    block.AssignsField parameter p ↔
      ∃ target value, Statement.listOfBlock block = [.assignment target value] ∧
        (target = .selfField p ∨ target = .name p ∧ p ≠ parameter) := by
  constructor
  · rintro ⟨c, a, left, e, hblock, hkind, ha, hassignment, hoperator, hleft, he, hp⟩
    have hc : c ∈ block.children := by
      have hmem : c ∈ block.blockContent := by rw [hblock]; exact List.mem_singleton_self c
      exact (List.mem_filter.mp hmem).1
    -- without a right side the model would not have an assignment here
    obtain ⟨right, hright⟩ := ((hfits.child hc).content? ha).right_isSome hassignment
    refine ⟨.ofTree left, .ofTree right, ?_, ?_⟩
    · refine (Statement.listOfBlock_eq_singleton_iff (by simp)).mpr ⟨c, hblock, by simp [hkind], ?_⟩
      exact Statement.ofTree_eq_assignment_iff.mpr ⟨hkind, a, ha,
        Statement.ofExpression_eq_assignment_iff.mpr
          ⟨hassignment, hoperator, left, right, hleft, hright, rfl, rfl⟩⟩
    · rcases hp with hp | ⟨hp, hne⟩
      · exact .inl (Expression.ofTree_eq_selfField_iff.mpr ⟨e, he, hp⟩)
      · exact .inr ⟨Expression.ofTree_eq_name_iff.mpr ⟨e, he, hp⟩, hne⟩
  · rintro ⟨target, value, hmodel, htarget⟩
    obtain ⟨c, hblock, -, hc⟩ := (Statement.listOfBlock_eq_singleton_iff (by simp)).mp hmodel
    obtain ⟨hkind, a, ha, hassignment⟩ := Statement.ofTree_eq_assignment_iff.mp hc
    obtain ⟨hakind, hoperator, left, right, hleft, -, rfl, -⟩ :=
      Statement.ofExpression_eq_assignment_iff.mp hassignment
    rcases htarget with htarget | ⟨htarget, hne⟩
    · obtain ⟨e, he, hp⟩ := Expression.ofTree_eq_selfField_iff.mp htarget
      exact ⟨c, a, left, e, hblock, hkind, ha, hakind, hoperator, hleft, he, .inl hp⟩
    · obtain ⟨e, he, hp⟩ := Expression.ofTree_eq_name_iff.mp htarget
      exact ⟨c, a, left, e, hblock, hkind, ha, hakind, hoperator, hleft, he, .inr ⟨hp, hne⟩⟩

end Tree

end AccessorScan
