import AccessorScan.Proofs.Bodies
import AccessorScan.Proofs.Outline
import AccessorScan.Proofs.Uncommented
import AccessorScan.Proofs.SourceTrees
import AccessorScan.Scan.Basic

/-!
# `Proofs.Comments` — comments never change a verdict

Each part of the model is compared with the same part of the model of the tree without comments. They
need not be equal, for the text of a type or a literal shows the comments in it, but their outlines
are, and so are the verdicts but for the lines.

## Contents
- `Parameter.map_name_uncommented`, `TypeRef.outline_uncommented`: what a declaration declares.
- `Expression.outline_uncommented`, `Statement.outline_listOfBlock_uncommented`: bodies.
- `Callable.outline_ofTree_uncommented`, `Tree.fieldsOfMember_uncommented`: members.
- `verdicts_uncommented`, `comments_irrelevant`.
-/

namespace AccessorScan

variable {t : Tree}

/-! ## Types and parameters -/

/-- A text holds the text of each leaf in it. -/
theorem Tree.infix_coveredAll {ts : List Tree} {c : Tree} (hc : c ∈ ts) (hleaf : c.isLeaf = true) :
    c.text.toList <:+: (coveredAll ts).toList := by
  induction ts with
  | nil => cases hc
  | cons t ts ih =>
      rw [coveredAll, String.toList_append]
      rcases List.mem_cons.mp hc with rfl | hc
      · cases c with
        | leaf role token =>
            rw [covered, String.toList_append]
            exact ⟨token.blank.toList, _, rfl⟩
        | node role kind cs => cases hleaf
      · exact (ih hc).trans (List.suffix_append _ _).isInfix

theorem Tree.infix_text {c : Tree} (hc : c ∈ t.children) (hleaf : c.isLeaf = true) :
    c.text.toList <:+: t.text.toList := by
  cases t with
  | leaf role token => cases hc
  | node role kind cs =>
      cases cs with
      | nil => cases hc
      | cons first rest =>
          rw [text, textAll, String.toList_append]
          rcases List.mem_cons.mp hc with rfl | hc
          · exact (List.prefix_append _ _).isInfix
          · exact (infix_coveredAll hc hleaf).trans (List.suffix_append _ _).isInfix

/-- What has the keyword of a type of numbers in it is neither `void` nor `boolean`. -/
theorem TypeRef.outline_ofKeyword_number (h : t.children.any Tree.isNumberWord = true) :
    (ofKeyword t.text).outline = .reference "" := by
  obtain ⟨c, hc, hword⟩ := List.any_eq_true.mp h
  simp only [Tree.isNumberWord, Bool.and_eq_true, List.contains_iff_mem] at hword
  obtain ⟨⟨hleaf, -⟩, hword⟩ := hword
  have hinfix := Tree.infix_text hc hleaf
  have hnone : ∀ w ∈ Tree.integralWords ++ ["float", "double"],
      ¬ w.toList <:+: "void".toList ∧ ¬ w.toList <:+: "boolean".toList := by
    decide +kernel
  obtain ⟨hvoid, hboolean⟩ := hnone _ hword
  unfold ofKeyword
  split
  next heq => rw [heq] at hinfix; exact absurd hinfix hvoid
  next heq => rw [heq] at hinfix; exact absurd hinfix hboolean
  next => rfl

/-- The outline of a type that is not written in one word. -/
theorem TypeRef.outline_ofTree_of_not_isLeaf (h : t.fitsWords = true) (hleaf : t.isLeaf = false) :
    (ofTree t none).outline = .reference "" := by
  unfold ofTree
  by_cases hkind :
      t.kind ∈ ["void_type", "boolean_type", "integral_type", "floating_point_type"]
  · rw [if_pos (by simpa using hkind)]
    simp only [List.mem_cons, List.not_mem_nil, or_false] at hkind
    -- of these only the types of numbers need not be leaves
    rcases hkind with hk | hk | hk | hk
    · simp [Tree.fitsWords, hk, hleaf] at h
    · simp [Tree.fitsWords, hk, hleaf] at h
    · exact outline_ofKeyword_number (by simpa [Tree.fitsWords, hk, hleaf] using h)
    · exact outline_ofKeyword_number (by simpa [Tree.fitsWords, hk, hleaf] using h)
  · rw [if_neg (by simpa using hkind)]
    rfl

theorem TypeRef.outline_ofTree_uncommented (h : t.fitsWords = true) (dimensions : Option Tree) :
    (ofTree t.uncommented (dimensions.map Tree.uncommented)).outline =
      (ofTree t dimensions).outline := by
  cases dimensions with
  | some d => rfl
  | none =>
      cases hleaf : t.isLeaf with
      | true => rw [Tree.uncommented_of_isLeaf hleaf]; rfl
      | false =>
          have h' : t.uncommented.fitsWords = true := by rw [Tree.fitsWords_uncommented, h]
          have hleaf' : t.uncommented.isLeaf = false := by rw [Tree.isLeaf_uncommented, hleaf]
          rw [Option.map_none, outline_ofTree_of_not_isLeaf h hleaf,
            outline_ofTree_of_not_isLeaf h' hleaf']

theorem TypeRef.outline_uncommented (h : t.uncommented.FitsWords) :
    (ofDeclaration t.uncommented (t.uncommented.part? .dimensions)).outline =
      (ofDeclaration t (t.part? .dimensions)).outline := by
  unfold ofDeclaration
  rw [Tree.part?_uncommented, Tree.part?_uncommented]
  cases htype : t.part? .type with
  | none => rfl
  | some type => exact outline_ofTree_uncommented (h.part? htype).node _

theorem Tree.spreadDeclarator?_uncommented (t : Tree) :
    t.uncommented.spreadDeclarator? = t.spreadDeclarator?.map Tree.uncommented := by
  refine find?_namedChildren_uncommented t (fun c => ?_) fun c hc => ?_
  · rw [kind_uncommented]
  · exact beq_eq_false_iff_ne.mpr (kind_ne_of_isComment hc (by decide) (by decide))

theorem Tree.FitsWords.spreadDeclarator? {d : Tree} (h : t.uncommented.FitsWords)
    (hd : t.spreadDeclarator? = some d) :
    d.uncommented.FitsWords ∧ d.kind = "variable_declarator" := by
  have hmem : d ∈ t.children := mem_of_mem_namedChildren (List.mem_of_find?_eq_some hd)
  have hkind : (d.kind == "variable_declarator") = true :=
    List.find?_some (p := fun c : Tree => c.kind == "variable_declarator") hd
  rw [beq_iff_eq] at hkind
  have hcomment : d.isComment = false := by simp [isComment, hkind]
  exact ⟨h.child hmem (isLoose_of_isComment hcomment), hkind⟩

/-- A name that the model takes over is written in one word. -/
theorem Tree.FitsWords.part?_name (h : t.uncommented.FitsWords) (hkind : t.kind ∈ namingKinds) :
    t.uncommented.part? .name = t.part? .name := by
  have hleaf : (t.part? .name).all isLeaf = true := by
    have hnode := h.node
    simp only [namingKinds, List.mem_cons, List.not_mem_nil, or_false] at hkind
    unfold fitsWords at hnode
    split at hnode <;> simp_all [namingKinds]
  rw [part?_uncommented]
  cases hname : t.part? .name with
  | none => rfl
  | some name =>
      rw [hname] at hleaf
      rw [Option.map_some, uncommented_of_isLeaf hleaf]

/-- Where a parameter with any number of arguments has its type there is something besides comments. -/
theorem Tree.spreadType?_of_fitsWords (h : t.fitsWords = true) (hkind : t.kind = "spread_parameter") :
    ∃ type, t.spreadType? = some type := by
  rw [← Option.isSome_iff_exists, spreadType?, List.find?_isSome]
  simp only [fitsWords, hkind, List.any_eq_true, Bool.and_eq_true] at h
  obtain ⟨c, hc, -, hother⟩ := h
  exact ⟨c, hc, hother⟩

theorem Parameter.map_name_ofSpread? (h : t.fitsWords = true) (hkind : t.kind = "spread_parameter") :
    (ofSpread? t).map name =
      (t.spreadDeclarator?.bind fun d => d.part? .name).map Tree.text := by
  obtain ⟨type, htype⟩ := Tree.spreadType?_of_fitsWords h hkind
  unfold ofSpread?
  rw [Tree.spreadType?] at htype
  rw [Tree.spreadDeclarator?, htype]
  cases t.namedChildren.find? fun c => c.kind == "variable_declarator" with
  | none => rfl
  | some d => cases hname : d.part? .name <;> simp [hname]

/-- A parameter has the same name. -/
theorem Parameter.map_name_ofTree?_uncommented (h : t.uncommented.FitsWords) :
    (ofTree? t.uncommented).map name = (ofTree? t).map name := by
  unfold ofTree?
  rw [Tree.kind_uncommented]
  split
  next hkind =>
      have hname := h.part?_name (by simp [hkind, Tree.namingKinds])
      rw [hname, Tree.part?_uncommented]
      cases t.part? .name with
      | none => rfl
      | some name => cases t.part? .type <;> rfl
  next hkind =>
      have hnode := h.node
      have hnode' : t.uncommented.fitsWords = true := by rw [Tree.fitsWords_uncommented, hnode]
      rw [map_name_ofSpread? hnode' (by rw [Tree.kind_uncommented, hkind]),
        map_name_ofSpread? hnode hkind, Tree.spreadDeclarator?_uncommented]
      cases hd : t.spreadDeclarator? with
      | none => rfl
      | some d =>
          obtain ⟨hfits, hdkind⟩ := h.spreadDeclarator? hd
          have hname := hfits.part?_name (by simp [hdkind, Tree.namingKinds])
          show (d.uncommented.part? .name).map Tree.text = (d.part? .name).map Tree.text
          rw [hname]
  next => rfl

theorem Parameter.map_name_uncommented (h : t.uncommented.FitsWords) :
    (listOfDeclaration t.uncommented).map name = (listOfDeclaration t).map name := by
  have hlist : ∀ list : Tree, list.uncommented.FitsWords →
      (listOfTree list.uncommented).map name = (listOfTree list).map name := by
    intro list hlist
    rw [listOfTree, listOfTree, List.map_filterMap, List.map_filterMap, Tree.namedChildren,
      Tree.namedChildren, List.filterMap_filter, List.filterMap_filter]
    refine list.filterMap_children_uncommented (fun c hc hloose => ?_) fun c hc => ?_
    · rw [Tree.isNamed_uncommented, map_name_ofTree?_uncommented (hlist.child hc hloose)]
    · have hcomment := Tree.isComment_of_isLoose hc
      have hkind : c.kind ∉ Tree.parameterKinds := by
        simp only [Tree.parameterKinds, List.mem_cons, List.not_mem_nil, or_false, not_or]
        exact ⟨Tree.kind_ne_of_isComment hcomment (by decide) (by decide),
          Tree.kind_ne_of_isComment hcomment (by decide) (by decide)⟩
      rw [ofTree?_eq_none hkind, Option.map_none, ite_self]
  rw [listOfDeclaration, listOfDeclaration, Tree.part?_uncommented]
  cases hparameters : t.part? .parameters with
  | none => rfl
  | some list => exact hlist list (h.part? hparameters)

/-! ## Bodies -/

/-- An expression that is no parenthesis has the same outline. -/
theorem Expression.outline_ofBare_uncommented (h : t.uncommented.FitsWords) :
    (ofBare t.uncommented).outline = (ofBare t).outline := by
  have hword : ∀ {c : Tree}, c.kind = "identifier" → c.uncommented.FitsWords →
      c.uncommented = c := by
    intro c hkind hc
    have hleaf := hc.node
    simp only [Tree.fitsWords, hkind] at hleaf
    exact Tree.uncommented_of_isLeaf hleaf
  have haccess : (ofFieldAccess t.uncommented).outline = (ofFieldAccess t).outline := by
    unfold ofFieldAccess
    rw [Tree.part?_uncommented, Tree.part?_uncommented, Tree.kind_uncommented]
    cases t.part? .object with
    | none => rfl
    | some object =>
        cases hfield : t.part? .field with
        | none => rfl
        | some field =>
            simp only [Option.map_some, Tree.kind_uncommented]
            by_cases hself : object.kind = "this" ∧ field.kind = "identifier"
            · rw [if_pos hself, if_pos hself, hword hself.2 (h.part? hfield)]
            · rw [if_neg hself, if_neg hself]
  unfold ofBare
  rw [Tree.kind_uncommented]
  by_cases hname : t.kind = "identifier"
  · rw [if_pos hname, if_pos hname, hword hname h]
  · rw [if_neg hname, if_neg hname]
    by_cases hfield : t.kind = "field_access"
    · rw [if_pos hfield, if_pos hfield, haccess]
    · rw [if_neg hfield, if_neg hfield]
      split <;> rfl

/-- **Expressions.** Whatever comments stand in an expression, its outline is the same. -/
theorem Expression.outline_uncommented (t : Tree) (h : t.uncommented.FitsWords) :
    (ofTree t.uncommented).outline = (ofTree t).outline := by
  induction t using Tree.children_induction with
  | step t ih =>
      rw [ofTree_eq, ofTree_eq, Tree.kind_uncommented]
      by_cases hkind : t.kind = "parenthesized_expression"
      · rw [if_pos hkind, if_pos hkind, Tree.content?_uncommented]
        cases hinner : t.content? with
        | none => rfl
        | some inner => exact ih inner (Tree.mem_of_content? hinner) (h.content? hinner)
      · rw [if_neg hkind, if_neg hkind, outline_ofBare_uncommented h]

theorem Statement.outline_ofExpression_uncommented (h : t.uncommented.FitsWords) :
    (ofExpression t.uncommented).outline = (ofExpression t).outline := by
  unfold ofExpression
  rw [Tree.kind_uncommented]
  by_cases hkind : t.kind = "assignment_expression"
  · have hoperator : t.uncommented.partText .operator = t.partText .operator := by
      have hleaf := h.node
      simp only [Tree.fitsWords, hkind] at hleaf
      rw [Tree.partText, Tree.partText, Tree.part?_uncommented]
      cases hop : t.part? .operator with
      | none => rfl
      | some operator =>
          rw [hop] at hleaf
          rw [Option.map_some, Tree.uncommented_of_isLeaf hleaf]
    rw [hoperator]
    by_cases hplain : t.kind = "assignment_expression" ∧ t.partText .operator = "="
    · rw [if_pos hplain, if_pos hplain, Tree.part?_uncommented, Tree.part?_uncommented]
      cases hleft : t.part? .left with
      | none => rfl
      | some left =>
          cases hright : t.part? .right with
          | none => rfl
          | some right =>
              show assignment _ _ = assignment _ _
              rw [Expression.outline_uncommented left (h.part? hleft),
                Expression.outline_uncommented right (h.part? hright)]
    · rw [if_neg hplain, if_neg hplain]
      show expression _ = expression _
      rw [Expression.outline_uncommented t h]
  · have hplain : ∀ s : String, ¬ (t.kind = "assignment_expression" ∧ s = "=") :=
      fun _ hp => hkind hp.1
    rw [if_neg (hplain _), if_neg (hplain _)]
    show expression _ = expression _
    rw [Expression.outline_uncommented t h]

theorem Statement.outline_ofTree_uncommented (h : t.uncommented.FitsWords) :
    (ofTree t.uncommented).outline = (ofTree t).outline := by
  by_cases hreturn : t.kind = "return_statement"
  · rw [ofTree_return hreturn, ofTree_return (by rw [Tree.kind_uncommented, hreturn]),
      Tree.content?_uncommented]
    cases hvalue : t.content? with
    | none => rfl
    | some value =>
        show result (some _) = result (some _)
        rw [Expression.outline_uncommented value (h.content? hvalue)]
  · by_cases hexpression : t.kind = "expression_statement"
    · rw [ofTree_expression hexpression,
        ofTree_expression (by rw [Tree.kind_uncommented, hexpression]), Tree.content?_uncommented]
      cases he : t.content? with
      | none => rfl
      | some e => exact outline_ofExpression_uncommented (h.content? he)
    · rw [ofTree_other hreturn hexpression, ofTree_other (by rw [Tree.kind_uncommented]; exact hreturn)
        (by rw [Tree.kind_uncommented]; exact hexpression), Tree.kind_uncommented]

/-- **Blocks.** Whatever comments stand in a block, its statements have the same outlines. -/
theorem Statement.outline_listOfBlock_uncommented (h : t.uncommented.FitsWords) :
    (listOfBlock t.uncommented).map outline = (listOfBlock t).map outline := by
  rw [listOfBlock, listOfBlock, List.map_filterMap, List.map_filterMap]
  refine t.filterMap_children_uncommented (fun c hc hloose => ?_) fun c hc => ?_
  · unfold ofChild?
    rw [Tree.isComment_uncommented, Tree.isMissing_uncommented, Tree.kind_uncommented,
      Tree.isNamed_uncommented]
    split
    · rfl
    · split
      · rfl
      · split
        · rw [Option.map_some, Option.map_some, outline_ofTree_uncommented (h.child hc hloose)]
        · rfl
  · rw [ofChild?, Tree.isComment_of_isLoose hc]
    rfl

/-! ## Members -/

/-- **Methods and constructors.** Whatever comments stand in one, its outline is the same. -/
theorem Callable.outline_ofTree_uncommented (h : t.uncommented.FitsWords)
    (hkind : t.kind ∈ Tree.namingKinds) {r r' : TypeRef} (hr : r'.outline = r.outline) :
    (ofTree t.uncommented r').outline = (ofTree t r).outline := by
  have hname : t.uncommented.partText .name = t.partText .name := by
    rw [Tree.partText, Tree.partText, h.part?_name hkind]
  have hparameters : (Parameter.listOfDeclaration t.uncommented).map Parameter.outline =
      (Parameter.listOfDeclaration t).map Parameter.outline := by
    have houtline : Parameter.outline = (fun n => ⟨n, .reference ""⟩) ∘ Parameter.name := rfl
    rw [houtline, ← List.map_map, ← List.map_map, Parameter.map_name_uncommented h]
  have hbody : ((t.uncommented.part? .body).map Statement.listOfBlock).map
        (fun body => body.map Statement.outline) =
      ((t.part? .body).map Statement.listOfBlock).map fun body => body.map Statement.outline := by
    rw [Tree.part?_uncommented]
    cases hblock : t.part? .body with
    | none => rfl
    | some block =>
        exact congrArg some (Statement.outline_listOfBlock_uncommented (h.part? hblock))
  simp only [outline, ofTree, hname, hparameters, hr, hbody]

theorem Member.name?_ofCallable (t : Tree) : (ofCallable t).name? = some (t.partText .name) := by
  unfold ofCallable
  split <;> rfl

theorem Member.isConstructor_ofCallable (t : Tree) :
    (ofCallable t).isConstructor = !(t.kind == "method_declaration") := by
  unfold ofCallable
  by_cases hkind : t.kind = "method_declaration"
  · rw [if_pos hkind, hkind]
    rfl
  · rw [if_neg hkind, beq_eq_false_iff_ne.mpr hkind]
    rfl

theorem Tree.isCallable_uncommented (t : Tree) : t.uncommented.isCallable = t.isCallable := by
  rw [isCallable, isCallable, kind_uncommented]

theorem Tree.isModelled_uncommented (t : Tree) : t.uncommented.isModelled = t.isModelled := by
  rw [isModelled, isModelled, kind_uncommented, part?_uncommented, Option.isSome_map]

theorem Tree.hasModifier_uncommented (t : Tree) {keyword : String} (hline : keyword ≠ "line_comment")
    (hblock : keyword ≠ "block_comment") :
    t.uncommented.hasModifier keyword = t.hasModifier keyword := by
  have hkind : ∀ {kind : String}, kind ≠ "line_comment" → kind ≠ "block_comment" →
      ∀ c : Tree, c.isLoose = true → (c.kind == kind) = false := fun hl hb c hc =>
    beq_eq_false_iff_ne.mpr (kind_ne_of_isComment (isComment_of_isLoose hc) hl hb)
  rw [hasModifier, hasModifier,
    find?_children_uncommented t (fun c => by rw [kind_uncommented]) (hkind (by decide) (by decide)),
    Option.any_map]
  refine congrArg (fun p => Option.any p _) (funext fun ms => ?_)
  exact any_children_uncommented ms (fun c => by rw [kind_uncommented]) (hkind hline hblock)

theorem Tree.declaratorNames_uncommented (h : t.uncommented.FitsWords)
    (hkind : t.kind = "field_declaration" ∨ t.kind = "constant_declaration") :
    t.uncommented.declaratorNames = t.declaratorNames := by
  have hdeclarators : ∀ d ∈ t.parts .declarator, d.kind = "variable_declarator" := by
    have hnode := h.node
    rcases hkind with hk | hk <;> simpa [fitsWords, hk] using hnode
  rw [declaratorNames, declaratorNames, parts_uncommented, List.filterMap_map]
  refine List.filterMap_congr fun d hd => ?_
  obtain ⟨hmem, hrole⟩ := List.mem_filter.mp hd
  have hloose : d.isLoose = false := isLoose_of_role (beq_iff_eq.mp hrole)
  have hname := (h.child hmem hloose).part?_name (by simp [hdeclarators d hd, namingKinds])
  rw [Function.comp_apply, hname]

/-- **Fields.** A member declares the same fields. -/
theorem Tree.fieldsOfMember_uncommented (h : t.uncommented.FitsWords) :
    t.uncommented.fieldsOfMember = t.fieldsOfMember := by
  rw [fieldsOfMember, fieldsOfMember, kind_uncommented,
    hasModifier_uncommented t (by decide) (by decide),
    hasModifier_uncommented t (by decide) (by decide)]
  by_cases hfield : t.kind = "field_declaration"
  · rw [if_pos hfield, if_pos hfield, declaratorNames_uncommented h (.inl hfield)]
  · rw [if_neg hfield, if_neg hfield]
    by_cases hconstant : t.kind = "constant_declaration"
    · rw [if_pos hconstant, if_pos hconstant, declaratorNames_uncommented h (.inr hconstant)]
    · rw [if_neg hconstant, if_neg hconstant]

/-! ## Types -/

theorem Tree.FitsWords.declaredMember {m : Tree} (h : t.uncommented.FitsWords)
    (hm : m ∈ t.declaredMembers) : m.uncommented.FitsWords := by
  have hmem : m.uncommented ∈ t.uncommented.declaredMembers := by
    rw [declaredMembers_uncommented]
    exact List.mem_map_of_mem hm
  exact (within_of_mem_declaredMembers hmem).everywhere h

section Types

variable {d d' : TypeDecl} (hd : TypeDecl.ofTree? t = some d)
  (hd' : TypeDecl.ofTree? t.uncommented = some d') (h : t.uncommented.FitsWords)

include hd hd' h

theorem TypeDecl.name_uncommented : d'.name = d.name := by
  have hkind := kind_mem_of_ofTree? hd
  have hnaming : t.kind ∈ Tree.namingKinds := by
    rw [TypeKind.mem_declarationKinds] at hkind
    rcases hkind with hk | hk | hk | hk <;> simp [hk, Tree.namingKinds]
  rw [name_of_ofTree? hd, name_of_ofTree? hd', Tree.partText, Tree.partText, h.part?_name hnaming]

theorem TypeDecl.hasPrivateInstance_uncommented (p : String) :
    d'.HasPrivateInstance p ↔ d.HasPrivateInstance p := by
  have hfields : d'.fields.map Tree.DeclaredField.ofField =
      d.fields.map Tree.DeclaredField.ofField := by
    rw [map_fields_of_ofTree? hd, map_fields_of_ofTree? hd', Parameter.map_name_uncommented h,
      Tree.declaredMembers_uncommented, List.flatMap_map]
    refine congrArg _ (List.flatMap_congr fun m hm => ?_)
    exact Tree.fieldsOfMember_uncommented (h.declaredMember hm)
  rw [hasPrivateInstance_iff_split, hasPrivateInstance_iff_split, hfields]

/-- The verdict on one callable. -/
theorem classify_ofCallable_uncommented {m : Tree} (hm : m ∈ t.declaredMembers) :
    classify d' (Member.ofCallable m.uncommented) = classify d (Member.ofCallable m) := by
  have hmfits := h.declaredMember hm
  rw [classify_congr (TypeDecl.hasPrivateInstance_uncommented hd hd' h), Member.ofCallable,
    Member.ofCallable, Tree.kind_uncommented]
  by_cases hkind : m.kind = "method_declaration"
  · rw [if_pos hkind, if_pos hkind]
    refine classify_method_outline d ?_
    exact Callable.outline_ofTree_uncommented hmfits (by simp [hkind, Tree.namingKinds])
      (TypeRef.outline_uncommented hmfits)
  · rw [if_neg hkind, if_neg hkind]
    rfl

theorem TypeDecl.ownVerdicts_uncommented (path : String) :
    (d'.ownVerdicts path).map Verdict.withoutLine = (d.ownVerdicts path).map Verdict.withoutLine := by
  have hcallables : t.uncommented.declaredMembers.filter Tree.isCallable =
      (t.declaredMembers.filter Tree.isCallable).map Tree.uncommented := by
    rw [Tree.declaredMembers_uncommented, List.filter_map]
    exact congrArg _ (List.filter_congr fun m _ => m.isCallable_uncommented)
  rw [ownVerdicts, ownVerdicts, callables_of_ofTree? hd, callables_of_ofTree? hd', hcallables]
  simp only [List.map_map]
  refine List.map_congr_left fun m hm => ?_
  obtain ⟨hmem, hcallable⟩ := List.mem_filter.mp hm
  have hname : m.uncommented.partText .name = m.partText .name := by
    have hnaming : m.kind ∈ Tree.namingKinds := by
      simp only [Tree.isCallable, List.contains_iff_mem, List.mem_cons, List.not_mem_nil,
        or_false] at hcallable
      rcases hcallable with hk | hk | hk <;> simp [hk, Tree.namingKinds]
    rw [Tree.partText, Tree.partText, (h.declaredMember hmem).part?_name hnaming]
  have hclassify : (FieldIndex.ofType d').classify (Member.ofCallable m.uncommented) =
      (FieldIndex.ofType d).classify (Member.ofCallable m) :=
    classify_ofCallable_uncommented hd hd' h hmem
  simp only [Function.comp_apply, Verdict.withoutLine, Member.name?_ofCallable,
    Member.isConstructor_ofCallable, Tree.kind_uncommented, hname, hclassify]

end Types

/-- Where the verdicts on each of some declarations are the same without comments, so are all. -/
theorem map_withoutLine_flatMap {ts : List Tree} {f g : TypeDecl → List Verdict}
    (h : ∀ t ∈ ts, ∀ d d', TypeDecl.ofTree? t = some d → TypeDecl.ofTree? t.uncommented = some d' →
      (f d').map Verdict.withoutLine = (g d).map Verdict.withoutLine) :
    (((ts.map Tree.uncommented).filterMap TypeDecl.ofTree?).flatMap f).map Verdict.withoutLine =
      ((ts.filterMap TypeDecl.ofTree?).flatMap g).map Verdict.withoutLine := by
  induction ts with
  | nil => rfl
  | cons t ts ih =>
      have hrest := ih fun x hx => h x (List.mem_cons_of_mem t hx)
      have hmodelled : (TypeDecl.ofTree? t.uncommented).isSome = (TypeDecl.ofTree? t).isSome := by
        rw [TypeDecl.ofTree?_isSome, TypeDecl.ofTree?_isSome, Tree.isModelled_uncommented]
      rw [List.map_cons]
      cases hd : TypeDecl.ofTree? t with
      | none =>
          rw [hd, Option.isSome_none, Option.isSome_eq_false_iff, Option.isNone_iff_eq_none]
            at hmodelled
          rw [List.filterMap_cons_none hd, List.filterMap_cons_none hmodelled, hrest]
      | some d =>
          rw [hd, Option.isSome_some, Option.isSome_iff_exists] at hmodelled
          obtain ⟨d', hd'⟩ := hmodelled
          rw [List.filterMap_cons_some hd, List.filterMap_cons_some hd', List.flatMap_cons,
            List.flatMap_cons, List.map_append, List.map_append, hrest,
            h t List.mem_cons_self d d' hd hd']

/-- **Types.** Whatever comments stand in a declaration, the verdicts on it are the same. -/
theorem TypeDecl.verdictsUnder_uncommented (t : Tree) :
    ∀ {d d' : TypeDecl}, ofTree? t = some d → ofTree? t.uncommented = some d' →
      t.uncommented.FitsWords → ∀ path : String,
      (d'.verdictsUnder path).map Verdict.withoutLine =
        (d.verdictsUnder path).map Verdict.withoutLine := by
  induction t using Tree.declared_induction with
  | step t ih =>
      intro d d' hd hd' h path
      rw [verdictsUnder_eq, verdictsUnder_eq, List.map_append, List.map_append,
        ownVerdicts_uncommented hd hd' h, nested_of_ofTree? hd, nested_of_ofTree? hd',
        Tree.declaredMembers_uncommented]
      refine congrArg _ (map_withoutLine_flatMap fun n hn e e' he he' => ?_)
      rw [name_uncommented he he' (h.declaredMember hn)]
      exact ih n hn he he' (h.declaredMember hn) _

/-- **Programs.** The verdicts on a tree are those on the tree without comments. -/
theorem verdicts_uncommented (h : t.uncommented.FitsWords) :
    (verdicts (TypeDecl.listOfProgram t.uncommented)).map Verdict.withoutLine =
      (verdicts (TypeDecl.listOfProgram t)).map Verdict.withoutLine := by
  -- what is neither a comment nor punctuation at the top
  let ts : List Tree := t.namedChildren.filter fun c => !c.isLoose
  have hbare : t.uncommented.namedChildren = ts.map Tree.uncommented := by
    have hnamed : Tree.isNamed ∘ Tree.uncommented = Tree.isNamed := funext Tree.isNamed_uncommented
    rw [Tree.namedChildren, Tree.children_uncommented, List.filter_map, hnamed, List.filter_comm]
    rfl
  have hall : t.namedChildren.filterMap TypeDecl.ofTree? = ts.filterMap TypeDecl.ofTree? := by
    rw [List.filterMap_filter]
    refine List.filterMap_congr fun c _ => ?_
    cases hloose : c.isLoose with
    | false => rfl
    | true =>
        rw [TypeDecl.ofTree?_comment (Tree.isComment_of_isLoose hloose)]
        rfl
  rw [verdicts, verdicts, TypeDecl.listOfProgram, TypeDecl.listOfProgram, hbare, hall]
  refine map_withoutLine_flatMap fun c hc d d' hd hd' => ?_
  obtain ⟨hmem, hloose⟩ := List.mem_filter.mp hc
  have hfits := h.child (Tree.mem_of_mem_namedChildren hmem) (by simpa using hloose)
  rw [TypeDecl.name_uncommented hd hd' hfits]
  exact TypeDecl.verdictsUnder_uncommented c hd hd' hfits _

/-- **Comments never change a verdict.** However many comments are put into a tree whose words are in
    one piece, or taken out of it, the verdicts are the same in number and order and differ at most in
    their lines. The tree of any source is such a tree. -/
theorem comments_irrelevant :
    (∀ t t' : Tree, t.FitsWords → Relation.EqvGen Tree.AddsComment t t' →
      (verdicts (TypeDecl.listOfProgram t)).map Verdict.withoutLine =
        (verdicts (TypeDecl.listOfProgram t')).map Verdict.withoutLine) ∧
    ∀ (source : String) (file : FilePath) (t' : Tree),
      Relation.EqvGen Tree.AddsComment (syntaxTree source) t' →
      (Scan.scanSource source file).value.methods.map Verdict.withoutLine =
        (verdicts (TypeDecl.listOfProgram t')).map Verdict.withoutLine := by
  have htrees : ∀ t t' : Tree, t.FitsWords → Relation.EqvGen Tree.AddsComment t t' →
      (verdicts (TypeDecl.listOfProgram t)).map Verdict.withoutLine =
        (verdicts (TypeDecl.listOfProgram t')).map Verdict.withoutLine := by
    intro t t' h hcomments
    have hsame : t.uncommented = t'.uncommented := Tree.eqvGen_addsComment_iff.mp hcomments
    have hfits : t.uncommented.FitsWords := h.uncommented
    have hfits' : t'.uncommented.FitsWords := by rw [← hsame]; exact hfits
    rw [← verdicts_uncommented hfits, hsame, verdicts_uncommented hfits']
  exact ⟨htrees, fun source file t' => htrees _ t' (syntaxTree_fitsWords source)⟩

/-- The tree of a class with a field and a method that returns it, and with these comments in its body,
    among the parameters of the method, in front of the statement and in the parentheses. -/
def switchTree (comments : List Tree) : Tree :=
  let sign (text : String) : Tree := .leaf none ⟨text, false, false, " ", text, 1⟩
  let word (kind text : String) : Tree := .leaf none ⟨kind, true, false, " ", text, 1⟩
  let name (text : String) : Tree := (word "identifier" text).withRole .name
  let boolean : Tree := (word "boolean_type" "boolean").withRole .type
  let field : Tree := .node none "field_declaration"
    [.node none "modifiers" [sign "private"], boolean,
      .node (some .declarator) "variable_declarator" [name "on"], sign ";"]
  let value : Tree := .node none "parenthesized_expression"
    ([sign "("] ++ comments ++ [word "identifier" "on", sign ")"])
  let getter : Tree := .node none "method_declaration" [boolean, name "isOn",
    .node (some .parameters) "formal_parameters" ([sign "("] ++ comments ++ [sign ")"]),
    .node (some .body) "block" ([sign leftBrace] ++ comments ++
      [.node none "return_statement" [sign "return", value, sign ";"], sign rightBrace])]
  programNode [.node none "class_declaration" [sign "class", name "Switch",
    .node (some .body) "class_body"
      ([sign leftBrace, field] ++ comments ++ [getter, sign rightBrace])]]

theorem comments_irrelevant_switch :
    let comments : List Tree :=
      [.leaf none ⟨"line_comment", true, false, " ", "// on", 1⟩,
        .leaf none ⟨"block_comment", true, false, " ", "/* off */", 2⟩]
    (switchTree comments).FitsWords ∧
    Relation.EqvGen Tree.AddsComment (switchTree comments) (switchTree []) ∧
    (verdicts (TypeDecl.listOfProgram (switchTree comments))).map Verdict.withoutLine =
      (verdicts (TypeDecl.listOfProgram (switchTree []))).map Verdict.withoutLine ∧
    (verdicts (TypeDecl.listOfProgram (switchTree []))).map Verdict.withoutLine =
      [⟨"Switch", "isOn", 0, false, some (.getter "on")⟩] := by
  intro comments
  have hfits : (switchTree comments).FitsWords := by decide
  have hcomments : Relation.EqvGen Tree.AddsComment (switchTree comments) (switchTree []) :=
    Tree.eqvGen_addsComment_iff.mpr rfl
  exact ⟨hfits, hcomments, comments_irrelevant.1 _ _ hfits hcomments, by decide⟩

end AccessorScan
