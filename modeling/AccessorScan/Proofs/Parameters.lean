import AccessorScan.Proofs.SourceTrees
import AccessorScan.Proofs.Uncommented

/-!
# `Proofs.Parameters` — what a parameter list declares

A parameter with one argument has its name and its type in roles of their own, so comments around them do
not matter. A parameter with any number of arguments has no such roles: its type is looked for among its
parts, and a comment that stands between modifiers and type is a part as well.

## Contents
- `Tree.WritesType`: the type that a node writes.
- `Tree.HasSpreadType`: the node that writes the type of a parameter with any number of arguments.
- `Tree.DeclaresParameter`: the parameter that a node declares.
- `Tree.declaresParameter_of_ofTree?`: the model has this parameter.
- `parameters_declared`, `parameters_take_comment`.
-/

namespace AccessorScan

namespace Tree

/-! ## What is declared -/

/-- The keywords of floating point types. -/
def floatingWords : List String := ["float", "double"]

/-- The kinds of the types that are keywords. -/
def keywordKinds : List String :=
  ["void_type", "boolean_type", "integral_type", "floating_point_type"]

/-- The node writes this type: a keyword what it stands for, and anything else its own text. -/
inductive WritesType (type : Tree) : TypeRef → Prop where
  | boolean (hkind : type.kind = "boolean_type") : WritesType type .boolean
  | integral (hkind : type.kind = "integral_type") (hword : type.text ∈ integralWords) :
      WritesType type (.primitive type.text)
  | floating (hkind : type.kind = "floating_point_type") (hword : type.text ∈ floatingWords) :
      WritesType type (.primitive type.text)
  /-- No parameter of a valid program is written like this. -/
  | void (hkind : type.kind = "void_type") : WritesType type .void
  | other (hkind : type.kind ∉ keywordKinds) : WritesType type (.reference type.text)

/-- What a parameter with any number of arguments has besides its type. -/
def besidesType : List String := ["modifiers", "variable_declarator"]

/-- The parameter with any number of arguments has its type behind the parts `before`, which are modifiers
    and comments. -/
structure HasSpreadType (c : Tree) (before : List Tree) (type : Tree) : Prop where
  parts : ∃ after, c.namedChildren = before ++ type :: after
  before : ∀ x ∈ before, x.isComment = true ∨ x.kind ∈ besidesType
  notComment : type.isComment = false
  isType : type.kind ∉ besidesType

/-- The node declares this parameter. -/
inductive DeclaresParameter (c : Tree) : Parameter → Prop where
  | plain {name type : Tree} {r : TypeRef} (hkind : c.kind = "formal_parameter")
      (hname : c.part? .name = some name) (htype : c.part? .type = some type)
      (hdimensions : c.part? .dimensions = none) (hr : type.WritesType r) :
      DeclaresParameter c ⟨name.text, r⟩
  | dimensioned {name type dimensions : Tree} (hkind : c.kind = "formal_parameter")
      (hname : c.part? .name = some name) (htype : c.part? .type = some type)
      (hdimensions : c.part? .dimensions = some dimensions) :
      DeclaresParameter c ⟨name.text, .reference (type.text ++ dimensions.text)⟩
  | spread {declarator name type : Tree} {before : List Tree} (hkind : c.kind = "spread_parameter")
      (hdeclarator : c.spreadDeclarator? = some declarator)
      (hname : declarator.part? .name = some name) (htype : c.HasSpreadType before type)
      (hbefore : ∀ x ∈ before, x.isComment = false) :
      DeclaresParameter c ⟨name.text, .reference (type.text ++ "...")⟩
  /-- The first comment before the type is taken for the type. -/
  | commented {declarator name comment type : Tree} {before more : List Tree}
      (hkind : c.kind = "spread_parameter") (hdeclarator : c.spreadDeclarator? = some declarator)
      (hname : declarator.part? .name = some name)
      (htype : c.HasSpreadType (before ++ comment :: more) type)
      (hcomment : comment.isComment = true) (hbefore : ∀ x ∈ before, x.isComment = false) :
      DeclaresParameter c ⟨name.text, .reference (comment.text ++ "...")⟩

/-! ## The type of a parameter -/

theorem FitsGrammar.writesType {type : Tree} (h : type.FitsGrammar) :
    type.WritesType (.ofTree type none) := by
  have hfits := h.kind_fits
  by_cases hkind : type.kind ∈ keywordKinds
  · have hmodel : TypeRef.ofTree type none = .ofKeyword type.text := if_pos (by simpa [keywordKinds] using hkind)
    rw [hmodel]
    simp only [keywordKinds, List.mem_cons, List.not_mem_nil, or_false] at hkind
    rcases hkind with hk | hk | hk | hk <;>
      simp only [fitsKind, hk, beq_iff_eq, List.contains_iff_mem] at hfits
    · rw [hfits]
      exact .void hk
    · rw [hfits]
      exact .boolean hk
    · have hword : TypeRef.ofKeyword type.text = .primitive type.text := by
        simp only [integralWords, List.mem_cons, List.not_mem_nil, or_false] at hfits
        rcases hfits with ht | ht | ht | ht | ht <;> rw [ht] <;> rfl
      rw [hword]
      exact .integral hk hfits
    · have hword : TypeRef.ofKeyword type.text = .primitive type.text := by
        simp only [List.mem_cons, List.not_mem_nil, or_false] at hfits
        rcases hfits with ht | ht <;> rw [ht] <;> rfl
      rw [hword]
      exact .floating hk hfits
  · have hmodel : TypeRef.ofTree type none = .reference type.text := if_neg (by simpa [keywordKinds] using hkind)
    rw [hmodel]
    exact .other hkind

/-- A parameter with any number of arguments has a type. -/
theorem exists_hasSpreadType {c : Tree} (hkind : c.kind = "spread_parameter")
    (hwords : c.fitsWords = true) : ∃ before type, c.HasSpreadType before type := by
  let isType : Tree → Bool := fun x => !x.isComment && !besidesType.contains x.kind
  have hsome : (c.namedChildren.find? isType).isSome = true := by
    rw [List.find?_isSome]
    rw [fitsWords, hkind] at hwords
    exact List.any_eq_true.mp hwords
  obtain ⟨type, htype⟩ := Option.isSome_iff_exists.mp hsome
  obtain ⟨hisType, before, after, hparts, hbefore⟩ := List.find?_eq_some_iff_append.mp htype
  obtain ⟨hcomment, hother⟩ := Bool.and_eq_true_iff.mp hisType
  refine ⟨before, type, ⟨after, hparts⟩, fun x hx => ?_, by simpa using hcomment, by simpa using hother⟩
  have hx := hbefore x hx
  simp only [isType, Bool.not_and, Bool.not_not, Bool.or_eq_true, List.contains_iff_mem] at hx
  exact hx

/-- Of the parts behind modifiers the first one is taken for the type. -/
theorem spreadType?_eq {c first : Tree} {before after : List Tree}
    (hparts : c.namedChildren = before ++ first :: after) (hbefore : ∀ x ∈ before, x.kind ∈ besidesType)
    (hfirst : first.kind ∉ besidesType) : c.spreadType? = some first := by
  refine List.find?_eq_some_iff_append.mpr ⟨by simpa [besidesType] using hfirst, before, after, hparts, fun x hx => ?_⟩
  simpa [besidesType] using hbefore x hx

/-- The parts before the type are free of comments, or there is a first comment among them. -/
theorem HasSpreadType.spreadType? {c type : Tree} {before : List Tree} (h : c.HasSpreadType before type) :
    (∀ x ∈ before, x.isComment = false) ∧ c.spreadType? = some type ∨
      ∃ front comment more, before = front ++ comment :: more ∧ comment.isComment = true ∧
        (∀ x ∈ front, x.isComment = false) ∧ c.spreadType? = some comment := by
  have hmodifiers : ∀ x ∈ before, x.isComment = false → x.kind ∈ besidesType := fun x hx hcomment =>
    (h.before x hx).resolve_left (by simp [hcomment])
  obtain ⟨after, hparts⟩ := h.parts
  cases hfind : before.find? isComment with
  | none =>
      have hnone : ∀ x ∈ before, x.isComment = false := by simpa using hfind
      exact .inl ⟨hnone, spreadType?_eq hparts (fun x hx => hmodifiers x hx (hnone x hx)) h.isType⟩
  | some comment =>
      obtain ⟨hcomment, front, more, rfl, hfront⟩ := List.find?_eq_some_iff_append.mp hfind
      have hfront : ∀ x ∈ front, x.isComment = false := by simpa using hfront
      refine .inr ⟨front, comment, more, rfl, hcomment, hfront, ?_⟩
      rw [List.append_assoc, List.cons_append] at hparts
      refine spreadType?_eq hparts (fun x hx => hmodifiers x (by simp [hx]) (hfront x hx)) ?_
      simp [besidesType, kind_ne_of_isComment hcomment]

/-! ## Parameters of the model -/

/-- **One parameter.** The model of a declaration is the parameter that it declares. -/
theorem declaresParameter_of_ofTree? {c : Tree} {p : Parameter} (hfits : c.FitsGrammar)
    (hwords : c.fitsWords = true) (h : Parameter.ofTree? c = some p) : c.DeclaresParameter p := by
  by_cases hplain : c.kind = "formal_parameter"
  · obtain ⟨name, type, hname, htype⟩ := hfits.formal hplain
    simp only [Parameter.ofTree?, hplain, hname, htype] at h
    obtain rfl := Option.some.inj h
    cases hdimensions : c.part? .dimensions with
    | none => exact .plain hplain hname htype hdimensions (hfits.part? htype).writesType
    | some dimensions => exact .dimensioned hplain hname htype hdimensions
  · by_cases hspread : c.kind = "spread_parameter"
    · obtain ⟨declarator, name, type, hdeclarator, hname, htype⟩ := hfits.spread hspread
      have hmodel : Parameter.ofTree? c = some ⟨name.text, .reference (type.text ++ "...")⟩ := by
        rw [spreadDeclarator?] at hdeclarator
        rw [Tree.spreadType?] at htype
        simp only [Parameter.ofTree?, hspread, Parameter.ofSpread?, hdeclarator, htype,
          Option.bind_eq_bind, Option.bind_some, hname, Option.pure_def]
      obtain rfl := Option.some.inj (h.symm.trans hmodel)
      obtain ⟨before, declared, hdeclared⟩ := exists_hasSpreadType hspread hwords
      rcases hdeclared.spreadType? with ⟨hbefore, hfirst⟩ | ⟨front, comment, more, rfl, hcomment, hfront, hfirst⟩
      · obtain rfl := Option.some.inj (htype.symm.trans hfirst)
        exact .spread hspread hdeclarator hname hdeclared hbefore
      · obtain rfl := Option.some.inj (htype.symm.trans hfirst)
        exact .commented hspread hdeclarator hname hdeclared hcomment hfront
    · have hnone := Parameter.ofTree?_eq_none (t := c) (by simp [parameterKinds, hplain, hspread])
      rw [hnone] at h
      cases h

/-- Each declaration in a parameter list makes the parameter that it declares. -/
theorem forall₂_declaresParameter {cs : List Tree} (hfits : ∀ c ∈ cs, c.FitsGrammar)
    (hwords : ∀ c ∈ cs, c.fitsWords = true) :
    List.Forall₂ DeclaresParameter (cs.filter fun c => parameterKinds.contains c.kind)
      (cs.filterMap Parameter.ofTree?) := by
  induction cs with
  | nil => exact .nil
  | cons c cs ih =>
      have hrest := ih (fun x hx => hfits x (List.mem_cons_of_mem c hx))
        fun x hx => hwords x (List.mem_cons_of_mem c hx)
      by_cases hkind : c.kind ∈ parameterKinds
      · obtain ⟨p, hp, -⟩ := Parameter.exists_ofTree? (hfits c List.mem_cons_self) hkind
        rw [List.filter_cons_of_pos (by simpa using hkind), List.filterMap_cons_some hp]
        have hc := declaresParameter_of_ofTree? (hfits c List.mem_cons_self)
          (hwords c List.mem_cons_self) hp
        exact .cons hc hrest
      · rw [List.filter_cons_of_neg (by simpa using hkind),
          List.filterMap_cons_none (Parameter.ofTree?_eq_none hkind)]
        exact hrest

/-- The parameters that the parameter list of `t` declares are those of the method, of the constructor
    and of the record that `t` may declare. -/
structure ModelsParameters (t : Tree) : Prop where
  method : List.Forall₂ DeclaresParameter t.parameterNodes (Callable.ofMethod t).parameters
  constructor : List.Forall₂ DeclaresParameter t.parameterNodes (Callable.ofTree t .void).parameters
  components : List.Forall₂ (fun c (f : Field) => c.DeclaresParameter ⟨f.name, f.type⟩) t.parameterNodes
    (Field.listOfComponents t)

theorem modelsParameters {t : Tree} (hfits : t.FitsGrammar) (hwords : t.FitsWords) :
    t.ModelsParameters := by
  have hlist : List.Forall₂ DeclaresParameter t.parameterNodes (Parameter.listOfDeclaration t) := by
    unfold parameterNodes Parameter.listOfDeclaration
    cases hlist : t.part? .parameters with
    | none => exact .nil
    | some list =>
        have hlistWords : list.FitsWords := (everywhere_iff.mp hwords).2 _ (mem_of_part? hlist)
        exact forall₂_declaresParameter
          (fun c hc => (hfits.part? hlist).child (mem_of_mem_namedChildren hc)) fun c hc =>
            (everywhere_iff.mp ((everywhere_iff.mp hlistWords).2 c (mem_of_mem_namedChildren hc))).1
  refine ⟨hlist, hlist, ?_⟩
  have hcomponents : (Field.listOfComponents t).map (fun f => (⟨f.name, f.type⟩ : Parameter)) =
      Parameter.listOfDeclaration t := by
    unfold Field.listOfComponents Parameter.listOfDeclaration
    cases t.part? .parameters with
    | none => rfl
    | some list =>
        rw [List.map_map]
        exact List.map_id _
  rw [← hcomponents, List.forall₂_map_right_iff] at hlist
  exact hlist

/-! ## Comments -/

/-- A comment behind the children `before` of a node of this kind does not stand between the modifiers and
    the type of a parameter with any number of arguments. -/
def IsFreePlace (kind : String) (before : List Tree) : Prop :=
  kind = "spread_parameter" → ∃ x ∈ before, x.isNamed = true ∧ x.kind ∉ besidesType

section Comments

variable {role : Option Role} {kind : String} {before after : List Tree} {comment : Tree}

theorem part?_comment (hcomment : comment.isLoose = true) (r : Role) :
    (node role kind (before ++ comment :: after)).part? r =
      (node role kind (before ++ after)).part? r := by
  have hrole : comment.role? = none := by
    simpa using (Bool.and_eq_true_iff.mp hcomment).2
  simp [part?, parts, children, hrole]

theorem find?_namedChildren_comment {p : Tree → Bool} (h : p comment = false) :
    (node role kind (before ++ comment :: after)).namedChildren.find? p =
      (node role kind (before ++ after)).namedChildren.find? p := by
  simp [namedChildren, children, List.find?_filter, h]

/-- A parameter does not change with a comment in a free place. -/
theorem ofTree?_comment (hcomment : comment.isLoose = true) (hplace : IsFreePlace kind before) :
    Parameter.ofTree? (node role kind (before ++ comment :: after)) =
      Parameter.ofTree? (node role kind (before ++ after)) := by
  unfold Parameter.ofTree?
  simp only [Tree.kind, part?_comment hcomment]
  split
  next => rfl
  next =>
      have hdeclarator : (comment.kind == "variable_declarator") = false := by
        rw [beq_eq_false_iff_ne]
        exact kind_ne_of_isComment (isComment_of_isLoose hcomment) (by decide) (by decide)
      obtain ⟨x, hx, hnamed, hkind⟩ := hplace rfl
      -- what stands in front already holds a part that is taken for the type
      have htype : ∀ cs : List Tree,
          (node role "spread_parameter" (before ++ cs)).namedChildren.find?
              (fun c => !(["modifiers", "variable_declarator"].contains c.kind)) =
            (before.filter isNamed).find? fun c => !(["modifiers", "variable_declarator"].contains c.kind) := by
        intro cs
        rw [namedChildren, children, List.filter_append, List.find?_append]
        refine Option.or_of_isSome (List.find?_isSome.mpr ⟨x, List.mem_filter.mpr ⟨hx, hnamed⟩, ?_⟩)
        simpa [besidesType] using hkind
      simp only [Parameter.ofSpread?, htype, find?_namedChildren_comment (p := fun c =>
        c.kind == "variable_declarator") hdeclarator]
  next => rfl

/-- A comment between parameters declares none. -/
theorem listOfTree_comment (hcomment : comment.isLoose = true) :
    Parameter.listOfTree (node role kind (before ++ comment :: after)) =
      Parameter.listOfTree (node role kind (before ++ after)) := by
  have hisComment := isComment_of_isLoose hcomment
  have hnone : Parameter.ofTree? comment = none := by
    refine Parameter.ofTree?_eq_none ?_
    simp only [parameterKinds, List.mem_cons, List.not_mem_nil, or_false, not_or]
    exact ⟨kind_ne_of_isComment hisComment (by decide) (by decide),
      kind_ne_of_isComment hisComment (by decide) (by decide)⟩
  simp [Parameter.listOfTree, namedChildren, children, List.filterMap_filter, hnone]

end Comments

end Tree

/-! ## Parameter lists -/

/-- **Parameters.** Each declaration in a parameter list makes the one parameter that it declares, in the
    order of the list, and nothing else there makes any. The trees of sources have such lists only. A comment
    makes no difference, except to a parameter with any number of arguments where it stands between modifiers
    and type: there it is taken for the type. -/
theorem parameters_declared (t : Tree) :
    (t.FitsGrammar → t.FitsWords → t.ModelsParameters) ∧
    (∀ source : String, t.Within (syntaxTree source) → t.ModelsParameters) ∧
    ∀ (role : Option Role) (kind : String) (before after : List Tree) (comment : Tree),
      comment.isLoose = true →
      Parameter.listOfTree (.node role kind (before ++ comment :: after)) =
          Parameter.listOfTree (.node role kind (before ++ after)) ∧
        (Tree.IsFreePlace kind before →
          Parameter.ofTree? (.node role kind (before ++ comment :: after)) =
            Parameter.ofTree? (.node role kind (before ++ after))) := by
  refine ⟨Tree.modelsParameters, fun source ht => ?_, ?_⟩
  · exact Tree.modelsParameters ((syntaxTree_fitsGrammar source).within ht)
      (ht.everywhere (syntaxTree_fitsWords source))
  · intro role kind before after comment hcomment
    exact ⟨Tree.listOfTree_comment hcomment, Tree.ofTree?_comment hcomment⟩

/-- A comment. -/
def noteTree : Tree := .leaf none ⟨"block_comment", true, false, " ", "/**/", 1⟩

/-- The tree of a modifier. -/
def finalTree : Tree := .node none "modifiers" [.leaf none ⟨"final", false, false, " ", "final", 1⟩]

/-- The tree of a parameter with any number of arguments, with this in front of its type. -/
def restTree (front : List Tree) : Tree :=
  .node none "spread_parameter" (front ++ [.leaf (some .type) ⟨"integral_type", true, false, " ", "int", 1⟩,
    .leaf none ⟨"...", false, false, "", "...", 1⟩,
    .node (some .declarator) "variable_declarator"
      [.leaf (some .name) ⟨"identifier", true, false, " ", "rest", 1⟩]])

/-- The tree of a method with a receiver, a comment, a parameter with dimensions, one without, and two
    with any number of arguments, the second one with a comment in front of its type. -/
def listedTree : Tree :=
  let word (role : Option Role) (kind text : String) : Tree := .leaf role ⟨kind, true, false, " ", text, 1⟩
  let name (text : String) : Tree := word (some .name) "identifier" text
  let dimensions : Tree := .node (some .dimensions) "dimensions"
    [.leaf none ⟨"[", false, false, "", "[", 1⟩, .leaf none ⟨"]", false, false, "", "]", 1⟩]
  .node none "method_declaration" [word (some .type) "void_type" "void", name "f",
    .node (some .parameters) "formal_parameters" [
      .node none "receiver_parameter" [word none "type_identifier" "T", word none "this" "this"], noteTree,
      .node none "formal_parameter" [finalTree, noteTree, word (some .type) "type_identifier" "T",
        name "a", dimensions],
      .node none "formal_parameter" [word (some .type) "boolean_type" "boolean", noteTree, name "b"],
      restTree [finalTree], restTree [finalTree, noteTree]]]

theorem parameters_declared_listed :
    listedTree.FitsGrammar ∧ listedTree.FitsWords ∧ listedTree.ModelsParameters ∧
    (Callable.ofMethod listedTree).parameters = [⟨"a", .reference "T[]"⟩, ⟨"b", .boolean⟩,
      ⟨"rest", .reference "int..."⟩, ⟨"rest", .reference "/**/..."⟩] ∧
    Parameter.ofTree? (.node none "spread_parameter" ((restTree [finalTree]).children ++ [noteTree])) =
      Parameter.ofTree? (.node none "spread_parameter" ((restTree [finalTree]).children ++ [])) := by
  have hfits : listedTree.FitsGrammar := by decide
  have hwords : listedTree.FitsWords := by decide
  have hplace : Tree.IsFreePlace "spread_parameter" (restTree [finalTree]).children := by
    rintro -
    exact ⟨_, .tail finalTree (.head _), rfl, by decide⟩
  obtain ⟨htree, -, hcomments⟩ := parameters_declared listedTree
  exact ⟨hfits, hwords, htree hfits hwords, by decide, (hcomments _ _ _ [] noteTree (by decide)).2 hplace⟩

/-- **A comment is taken for the type.** The type of a parameter with any number of arguments is not always
    that of the node that writes it: here it is the comment behind `final`. -/
theorem parameters_take_comment :
    (¬ ∀ (c type : Tree) (before : List Tree) (p : Parameter), c.FitsGrammar → c.FitsWords →
      c.kind = "spread_parameter" → c.HasSpreadType before type → Parameter.ofTree? c = some p →
      p.type = .reference (type.text ++ "...")) ∧
    ((TypeDecl.listOfProgram (syntaxTree
        "class T \x7b void f(final /* c */ int... xs) \x7b\x7d \x7d")).flatMap fun d =>
      d.callables.map fun m => m.callable?.map Callable.parameters) =
        [some [⟨"xs", .reference "/* c */..."⟩]] := by
  refine ⟨fun h => ?_, by decide +kernel⟩
  let type : Tree := .leaf (some .type) ⟨"integral_type", true, false, " ", "int", 1⟩
  have htype : (restTree [finalTree, noteTree]).HasSpreadType [finalTree, noteTree] type :=
    ⟨⟨_, rfl⟩, by decide, by decide, by decide⟩
  have hcomment : Parameter.ofTree? (restTree [finalTree, noteTree]) =
      some ⟨"rest", .reference "/**/..."⟩ := by decide
  have hint := h _ type _ _ (by decide) (by decide) rfl htype hcomment
  exact absurd hint (by decide)

end AccessorScan
