import AccessorScan.Proofs.AccessorNames
import AccessorScan.Proofs.Occurrences
import AccessorScan.Proofs.Outline
import AccessorScan.Proofs.Pieces
import AccessorScan.Scan.Basic

/-!
# `Proofs.Beans` — every bean is recognised

A bean is a class with a private field, a getter and a setter for each of its properties. From its text to
the verdicts nothing is left open: the text is read as what it declares, and every method is judged an
accessor of its property, also where the property has the name of the setter's parameter and where it is
declared more than once.

## Contents
- `IsPropertyName`: the names of properties that may stand in a text.
- `beanText`: the text of a bean; `isSound_fieldPiece`, `isSound_getterPiece`, `isSound_setterPiece`.
- `AreOfBean`: the members of a bean; `AreOfBean.ownVerdicts_eq`.
- `beans_recognised`.
-/

namespace AccessorScan

/-! ## Names -/

/-- A free name that starts in lower case. -/
structure IsPropertyName (p : String) : Prop extends IsFreeName p where
  lower : p.toList.head?.any Char.isLower = true

namespace IsPropertyName

variable {p : String}

/-- The letters of a property, and those of its capitalized name. -/
theorem exists_letters (h : IsPropertyName p) :
    ∃ c cs, p = String.ofList (c :: cs) ∧ capitalized p = String.ofList (c.toUpper :: cs) ∧
      c.isLower = true ∧ cs.all Char.isAlphanum = true := by
  obtain ⟨c, cs, hletters, -, hcs⟩ := h.letters
  have hlower := h.lower
  rw [hletters] at hlower
  refine ⟨c, cs, by rw [← hletters, String.ofList_toList], ?_, hlower, hcs⟩
  rw [capitalized, hletters]

theorem names (h : IsPropertyName p) (x : Prefix) : x.Names (accessorName x p) p :=
  names_accessorName x h.lower

/-- No word with a meaning has a letter in upper case, as the names of accessors do. -/
theorem isFreeName_accessorName (h : IsPropertyName p) (x : Prefix) : IsFreeName (accessorName x p) := by
  obtain ⟨c, cs, -, hcap, hc, hcs⟩ := h.exists_letters
  obtain ⟨hupper, -, -⟩ := toUpper_of_isLower hc
  have hname : (accessorName x p).toList = x.text.toList ++ c.toUpper :: cs := by
    rw [accessorName, hcap, String.toList_append, String.toList_ofList]
  have hletter : c.toUpper.isAlphanum = true :=
    Bool.or_eq_true_iff.mpr (.inl (Bool.or_eq_true_iff.mpr (.inl hupper)))
  refine ⟨?_, fun hmem => ?_⟩
  · rw [hname]
    have hrest : (c.toUpper :: cs).all Char.isAlphanum = true := by simp [hletter, hcs]
    cases x with
    | is => exact ⟨'i', 's' :: c.toUpper :: cs, rfl, rfl, hrest⟩
    | get => exact ⟨'g', 'e' :: 't' :: c.toUpper :: cs, rfl, rfl, hrest⟩
    | set => exact ⟨'s', 'e' :: 't' :: c.toUpper :: cs, rfl, rfl, hrest⟩
  · have hwords : ∀ text ∈ meaningfulWords, text.toList.all (fun c => !c.isUpper) = true := by decide
    have hnone := List.all_eq_true.mp (hwords _ hmem) c.toUpper (by simp [hname])
    simp [hupper] at hnone

end IsPropertyName

/-! ## Members -/

def fieldText (p : String) : String := "private int " ++ p ++ ";"

def getterText (p : String) : String :=
  "public int " ++ accessorName .get p ++ "() \x7b return " ++ p ++ "; \x7d"

def setterText (p : String) : String :=
  "public void " ++ accessorName .set p ++ "(int value) \x7b this." ++ p ++ " = value; \x7d"

def fieldPiece (p : String) : Piece where
  text := fieldText p
  moulds := [.fixed .word "private", .fixed .word "int", .fixed .word p, .fixed .mark ";"]
  member line := .field ⟨p, .primitive "int", [.privateAccess], line⟩

def getterPiece (p : String) : Piece where
  text := getterText p
  moulds := [.fixed .word "public", .fixed .word "int", .fixed .word (accessorName .get p), .fixed .mark "(",
    .fixed .mark ")", .fixed .mark leftBrace, .fixed .word "return", .fixed .word p, .fixed .mark ";",
    .fixed .mark rightBrace]
  member line := .method ⟨accessorName .get p, [], .primitive "int", [.publicAccess],
    some [.result (some (.name p))], line⟩

def setterPiece (p : String) : Piece where
  text := setterText p
  moulds := [.fixed .word "public", .fixed .word "void", .fixed .word (accessorName .set p), .fixed .mark "(",
    .fixed .word "int", .fixed .word "value", .fixed .mark ")", .fixed .mark leftBrace, .fixed .word "this",
    .fixed .mark ".", .fixed .word p, .fixed .mark "=", .fixed .word "value", .fixed .mark ";",
    .fixed .mark rightBrace]
  member line := .method ⟨accessorName .set p, [⟨"value", .primitive "int"⟩], .void, [.publicAccess],
    some [.assignment (.selfField p) (.name "value")], line⟩

section Pieces

variable {p : String}

theorem isSound_fieldPiece (hp : IsFreeName p) : (fieldPiece p).IsSound where
  cuts := by
    refine cutsAs_of_spelled
      (fun gap => [.word gap "private", .word " " "int", .word " " p, .mark "" ';'])
      (fun gap => ?_) (fun gap => rfl) (fun gap hgap => ?_) (fun gap => rfl)
    · simp [Written.chars, Written.blank, Written.text, fieldPiece, fieldText]
    · simp only [List.forall_mem_cons]
      exact ⟨⟨hgap, rfl⟩, ⟨rfl, rfl⟩, ⟨rfl, hp.isWordText⟩, ⟨rfl, rfl⟩, List.forall_mem_nil _⟩
  declares := by
    have hanswers : AnswersMember
        [.fixed .word "private", .fixed .word "int", .name, .fixed .mark ";"]
        (fun ls => .field ⟨(ls 2).text, .primitive "int", [.privateAccess], (ls 2).line⟩) :=
      ⟨_, rfl, fun _ => ⟨rfl, rfl⟩⟩
    refine hanswers.declares (List.cons_ne_nil _ _) ?_ fun ls hfits => ?_
    · simp [fieldPiece, Mould.covers_refl, Mould.covers_name hp]
    · refine ⟨(lexemeAt ls 2).line, ?_⟩
      have hname : (lexemeAt ls 2).text = p := text_lexemeAt hfits rfl
      rw [hname]
      rfl

theorem isSound_getterPiece (hp : IsPropertyName p) : (getterPiece p).IsSound where
  cuts := by
    have hname := (hp.isFreeName_accessorName .get).isWordText
    refine cutsAs_of_spelled
      (fun gap => [.word gap "public", .word " " "int", .word " " (accessorName .get p), .mark "" '(',
        .mark "" ')', .mark " " '\x7b', .word " " "return", .word " " p, .mark "" ';', .mark " " '\x7d'])
      (fun gap => ?_) (fun gap => rfl) (fun gap hgap => ?_) (fun gap => rfl)
    · simp [Written.chars, Written.blank, Written.text, getterPiece, getterText]
    · simp only [List.forall_mem_cons]
      exact ⟨⟨hgap, rfl⟩, ⟨rfl, rfl⟩, ⟨rfl, hname⟩, ⟨rfl, rfl⟩, ⟨rfl, rfl⟩, ⟨rfl, rfl⟩, ⟨rfl, rfl⟩,
        ⟨rfl, hp.isWordText⟩, ⟨rfl, rfl⟩, ⟨rfl, rfl⟩, List.forall_mem_nil _⟩
  declares := by
    have hanswers : AnswersMember
        [.fixed .word "public", .fixed .word "int", .name, .fixed .mark "(", .fixed .mark ")",
          .fixed .mark leftBrace, .fixed .word "return", .name, .fixed .mark ";", .fixed .mark rightBrace]
        (fun ls => .method ⟨(ls 2).text, [], .primitive "int", [.publicAccess],
          some [.result (some (.name (ls 7).text))], (ls 0).line⟩) :=
      ⟨_, rfl, fun _ => ⟨rfl, rfl⟩⟩
    refine hanswers.declares (List.cons_ne_nil _ _) ?_ fun ls hfits => ⟨(lexemeAt ls 0).line, ?_⟩
    · simp [getterPiece, Mould.covers_refl, Mould.covers_name hp.toIsFreeName,
        Mould.covers_name (hp.isFreeName_accessorName .get)]
    · have hname : (lexemeAt ls 2).text = accessorName .get p := text_lexemeAt hfits rfl
      have hproperty : (lexemeAt ls 7).text = p := text_lexemeAt hfits rfl
      rw [hname, hproperty]
      rfl

theorem isSound_setterPiece (hp : IsPropertyName p) : (setterPiece p).IsSound where
  cuts := by
    have hname := (hp.isFreeName_accessorName .set).isWordText
    refine cutsAs_of_spelled
      (fun gap => [.word gap "public", .word " " "void", .word " " (accessorName .set p), .mark "" '(',
        .word "" "int", .word " " "value", .mark "" ')', .mark " " '\x7b', .word " " "this", .mark "" '.',
        .word "" p, .mark " " '=', .word " " "value", .mark "" ';', .mark " " '\x7d'])
      (fun gap => ?_) (fun gap => rfl) (fun gap hgap => ?_) (fun gap => rfl)
    · simp [Written.chars, Written.blank, Written.text, setterPiece, setterText]
    · simp only [List.forall_mem_cons]
      exact ⟨⟨hgap, rfl⟩, ⟨rfl, rfl⟩, ⟨rfl, hname⟩, ⟨rfl, rfl⟩, ⟨rfl, rfl⟩, ⟨rfl, rfl⟩, ⟨rfl, rfl⟩,
        ⟨rfl, rfl⟩, ⟨rfl, rfl⟩, ⟨rfl, rfl⟩, ⟨rfl, hp.isWordText⟩, ⟨rfl, rfl⟩, ⟨rfl, rfl⟩, ⟨rfl, rfl⟩,
        ⟨rfl, rfl⟩, List.forall_mem_nil _⟩
  declares := by
    have hanswers : AnswersMember
        [.fixed .word "public", .fixed .word "void", .name, .fixed .mark "(", .fixed .word "int",
          .fixed .word "value", .fixed .mark ")", .fixed .mark leftBrace, .fixed .word "this", .fixed .mark ".",
          .name, .fixed .mark "=", .fixed .word "value", .fixed .mark ";", .fixed .mark rightBrace]
        (fun ls => .method ⟨(ls 2).text, [⟨"value", .primitive "int"⟩], .void, [.publicAccess],
          some [.assignment (.selfField (ls 10).text) (.name "value")], (ls 0).line⟩) :=
      ⟨_, rfl, fun _ => ⟨rfl, rfl⟩⟩
    refine hanswers.declares (List.cons_ne_nil _ _) ?_ fun ls hfits => ⟨(lexemeAt ls 0).line, ?_⟩
    · simp [setterPiece, Mould.covers_refl, Mould.covers_name hp.toIsFreeName,
        Mould.covers_name (hp.isFreeName_accessorName .set)]
    · have hname : (lexemeAt ls 2).text = accessorName .set p := text_lexemeAt hfits rfl
      have hproperty : (lexemeAt ls 10).text = p := text_lexemeAt hfits rfl
      rw [hname, hproperty]
      rfl

end Pieces

/-! ## The text of a bean -/

/-- The text of a bean, with blanks between the head of the class, its members and the closing brace. -/
def beanText (gap : Nat → String) (name : String) (ps : List String) : String :=
  layOut gap (headText name :: ps.map fieldText ++ (ps.flatMap fun p => [getterText p, setterText p]) ++
    [rightBrace])

/-- The methods of a bean, property by property. -/
def accessorPieces (ps : List String) : List Piece := ps.flatMap fun p => [getterPiece p, setterPiece p]

theorem beanText_eq (gap : Nat → String) (name : String) (ps : List String) :
    beanText gap name ps = classText gap name (ps.map fieldPiece ++ accessorPieces ps) := by
  simp [beanText, classText, accessorPieces, List.map_flatMap, Function.comp_def, fieldPiece, getterPiece,
    setterPiece]

theorem isSound_beanPieces {ps : List String} (hps : ∀ p ∈ ps, IsPropertyName p) :
    ∀ piece ∈ ps.map fieldPiece ++ accessorPieces ps, piece.IsSound := by
  simp only [accessorPieces, List.mem_append, List.mem_map, List.mem_flatMap]
  rintro piece (⟨p, hp, rfl⟩ | ⟨p, hp, hpiece⟩)
  · exact isSound_fieldPiece (hps p hp).toIsFreeName
  · have hall : ∀ piece ∈ [getterPiece p, setterPiece p], piece.IsSound := by
      simp only [List.forall_mem_cons]
      exact ⟨isSound_getterPiece (hps p hp), isSound_setterPiece (hps p hp), List.forall_mem_nil _⟩
    exact hall piece hpiece

/-! ## The members of a bean -/

/-- The members are those of a bean: its fields, and after them the methods. -/
def AreOfBean (ps : List String) (members : List Member) : Prop :=
  List.Forall₂ Piece.Yields (ps.map fieldPiece ++ accessorPieces ps) members

section Members

variable {α : Type} {f : Member → Option α} {ofField ofGetter ofSetter : String → Option α} {ps : List String}
  {members : List Member}

theorem filterMap_fields (h : List.Forall₂ Piece.Yields (ps.map fieldPiece) members)
    (hfield : ∀ p ∈ ps, ∀ line, f ((fieldPiece p).member line) = ofField p) :
    members.filterMap f = ps.filterMap ofField := by
  induction ps generalizing members with
  | nil =>
      cases h
      rfl
  | cons p ps ih =>
      obtain ⟨_, rest, ⟨line, rfl⟩, hrest, rfl⟩ := List.forall₂_cons_left_iff.mp h
      obtain ⟨hp, hps⟩ := List.forall_mem_cons.mp hfield
      rw [List.filterMap_cons, List.filterMap_cons, hp, ih hrest hps]

theorem filterMap_accessors (h : List.Forall₂ Piece.Yields (accessorPieces ps) members)
    (hgetter : ∀ p ∈ ps, ∀ line, f ((getterPiece p).member line) = ofGetter p)
    (hsetter : ∀ p ∈ ps, ∀ line, f ((setterPiece p).member line) = ofSetter p) :
    members.filterMap f = ps.flatMap fun p => [ofGetter p, ofSetter p].filterMap id := by
  induction ps generalizing members with
  | nil =>
      cases h
      rfl
  | cons p ps ih =>
      obtain ⟨_, _, ⟨first, rfl⟩, hafter, rfl⟩ := List.forall₂_cons_left_iff.mp h
      obtain ⟨_, rest, ⟨second, rfl⟩, hrest, rfl⟩ := List.forall₂_cons_left_iff.mp hafter
      obtain ⟨hget, hgetter⟩ := List.forall_mem_cons.mp hgetter
      obtain ⟨hset, hsetter⟩ := List.forall_mem_cons.mp hsetter
      rw [List.flatMap_cons, ← ih hrest hgetter hsetter, ← hget first, ← hset second]
      rw [List.filterMap_cons, List.filterMap_cons]
      cases f ((getterPiece p).member first) <;> cases f ((setterPiece p).member second) <;> rfl

/-- What is taken from the members of a bean, whatever their lines are. -/
theorem AreOfBean.filterMap_eq (h : AreOfBean ps members)
    (hfield : ∀ p ∈ ps, ∀ line, f ((fieldPiece p).member line) = ofField p)
    (hgetter : ∀ p ∈ ps, ∀ line, f ((getterPiece p).member line) = ofGetter p)
    (hsetter : ∀ p ∈ ps, ∀ line, f ((setterPiece p).member line) = ofSetter p) :
    members.filterMap f = ps.filterMap ofField ++ ps.flatMap fun p => [ofGetter p, ofSetter p].filterMap id := by
  obtain ⟨fields, methods, rfl, hfields, hmethods⟩ := forall₂_append h
  rw [List.filterMap_append, filterMap_fields hfields hfield, filterMap_accessors hmethods hgetter hsetter]

end Members

/-! ## The verdicts on a bean -/

/-- A field of the name is enough where every field is private and belongs to each object. -/
theorem TypeDecl.hasPrivateInstance_of_forall {t : TypeDecl} {n : String}
    (hall : ∀ f ∈ t.fields, f.isPrivateInstance = true) (hname : ∃ f ∈ t.fields, f.name = n) :
    t.HasPrivateInstance n := by
  obtain ⟨g, hg, hn⟩ := hname
  obtain ⟨f, hfind⟩ : ∃ f, (t.fields.find? fun f => f.name == n) = some f :=
    Option.isSome_iff_exists.mp (List.find?_isSome.mpr ⟨g, hg, beq_iff_eq.mpr hn⟩)
  have hf : f ∈ t.fields := List.mem_of_find?_eq_some hfind
  exact ⟨f, TypeDecl.firstField_iff.mpr hfind, Field.isPrivateInstance_iff.mp (hall f hf)⟩

section Verdicts

variable {ps : List String} {t : TypeDecl}

namespace AreOfBean

theorem hasPrivateInstance (h : AreOfBean ps t.members) {p : String} (hp : p ∈ ps) :
    t.HasPrivateInstance p := by
  -- A property that is declared twice has two fields. The first of them counts, but they are all private.
  let shown : Field → String × Bool := fun f => (f.name, f.isPrivateInstance)
  have hfield : ∀ p ∈ ps, ∀ line, ((fieldPiece p).member line).field?.map shown = some (p, true) :=
    fun _ _ _ => rfl
  have hgetter : ∀ p ∈ ps, ∀ line, ((getterPiece p).member line).field?.map shown = none := fun _ _ _ => rfl
  have hsetter : ∀ p ∈ ps, ∀ line, ((setterPiece p).member line).field?.map shown = none := fun _ _ _ => rfl
  have hfields : t.fields.map shown = ps.map fun p => (p, true) := by
    rw [TypeDecl.fields, List.map_filterMap, h.filterMap_eq hfield hgetter hsetter]
    simp
  refine TypeDecl.hasPrivateInstance_of_forall (fun f hf => ?_) ?_
  · have hmem : shown f ∈ ps.map fun p => (p, true) := hfields ▸ List.mem_map_of_mem hf
    obtain ⟨q, -, hq⟩ := List.mem_map.mp hmem
    exact (congrArg Prod.snd hq).symm
  · have hmem : (p, true) ∈ t.fields.map shown := hfields ▸ List.mem_map_of_mem hp
    obtain ⟨f, hf, hshown⟩ := List.mem_map.mp hmem
    exact ⟨f, hf, congrArg Prod.fst hshown⟩

theorem nested_eq (h : AreOfBean ps t.members) : t.nested = [] := by
  have hfield : ∀ p ∈ ps, ∀ line, ((fieldPiece p).member line).type? = none := fun _ _ _ => rfl
  have hgetter : ∀ p ∈ ps, ∀ line, ((getterPiece p).member line).type? = none := fun _ _ _ => rfl
  have hsetter : ∀ p ∈ ps, ∀ line, ((setterPiece p).member line).type? = none := fun _ _ _ => rfl
  rw [TypeDecl.nested, h.filterMap_eq hfield hgetter hsetter]
  simp

theorem classify_getter (h : AreOfBean ps t.members) {p : String} (hp : p ∈ ps) (hname : IsPropertyName p)
    (line : Nat) : classify t ((getterPiece p).member line) = some (.getter p) :=
  classify_eq_getter_iff.mpr
    ⟨_, .name p, rfl, .inl (hname.names .get), rfl, rfl, .inl rfl, h.hasPrivateInstance hp⟩

theorem classify_setter (h : AreOfBean ps t.members) {p : String} (hp : p ∈ ps) (hname : IsPropertyName p)
    (line : Nat) : classify t ((setterPiece p).member line) = some (.setter p) :=
  classify_eq_setter_iff.mpr
    ⟨_, _, .selfField p, .name "value", rfl, hname.names .set, rfl, rfl, rfl, .inl rfl, h.hasPrivateInstance hp⟩

/-- **The verdicts on a bean.** -/
theorem ownVerdicts_eq (h : AreOfBean ps t.members) (hps : ∀ p ∈ ps, IsPropertyName p) (path : String) :
    (t.ownVerdicts path).map Verdict.withoutLine = ps.flatMap fun p =>
      [⟨path, accessorName .get p, 0, false, some (.getter p)⟩,
        ⟨path, accessorName .set p, 0, false, some (.setter p)⟩] := by
  let judged : Member → Option Verdict := fun m =>
    if m.callable?.isSome then some ⟨path, m.name?.getD "", 0, m.isConstructor, classify t m⟩ else none
  have hall : (t.ownVerdicts path).map Verdict.withoutLine = t.members.filterMap judged := by
    rw [TypeDecl.ownVerdicts, List.map_map, ← List.filterMap_eq_map, TypeDecl.callables, List.filterMap_filter]
    rfl
  have hfield : ∀ p ∈ ps, ∀ line, judged ((fieldPiece p).member line) = none := fun _ _ _ => rfl
  have hgetter : ∀ p ∈ ps, ∀ line, judged ((getterPiece p).member line) =
      some ⟨path, accessorName .get p, 0, false, some (.getter p)⟩ := by
    intro p hp line
    rw [← h.classify_getter hp (hps p hp) line]
    rfl
  have hsetter : ∀ p ∈ ps, ∀ line, judged ((setterPiece p).member line) =
      some ⟨path, accessorName .set p, 0, false, some (.setter p)⟩ := by
    intro p hp line
    rw [← h.classify_setter hp (hps p hp) line]
    rfl
  rw [hall, h.filterMap_eq hfield hgetter hsetter]
  simp

end AreOfBean

end Verdicts

/-! ## From the text to the verdicts -/

/-- **Every bean is recognised.** The scan of its text tells nothing beside the report, and the report has no
    error and exactly the accessors of the properties, in their order. -/
theorem beans_recognised {ps : List String} (hps : ∀ p ∈ ps, IsPropertyName p) {name : String}
    (hname : IsFreeName name) {gap : Nat → String} (hgap : ∀ n, IsBlankText (gap n)) (path : FilePath) :
    let scan := Scan.scanSource (beanText gap name ps) path
    scan.entries = [] ∧ scan.value.error = none ∧
      scan.value.methods.map Verdict.withoutLine = ps.flatMap fun p =>
        [⟨name, "get" ++ capitalized p, 0, false, some (.getter p)⟩,
          ⟨name, "set" ++ capitalized p, 0, false, some (.setter p)⟩] := by
  obtain ⟨line, members, hmodel, hmembers⟩ := ofSource_classText (isSound_beanPieces hps) hname hgap
  rw [← beanText_eq] at hmodel
  have hbean : AreOfBean ps members := hmembers
  have hreport : Scan.scanSource (beanText gap name ps) path =
      ⟨⟨path.text, verdicts [⟨name, .ordinary, line, members⟩], none⟩, []⟩ := by
    simp only [Scan.scanSource, Scan.modelOf, hmodel]
    rfl
  simp only [hreport]
  refine ⟨trivial, trivial, ?_⟩
  rw [verdicts, List.flatMap_singleton, TypeDecl.verdictsUnder_eq, hbean.nested_eq, List.flatMap_nil,
    List.append_nil]
  exact hbean.ownVerdicts_eq hps name

/-- One property has the name of the setter's parameter, and one is declared twice. -/
theorem beans_recognised_sensor :
    let gap : Nat → String := fun n => if n = 0 then "" else "\n"
    let scan := Scan.scanSource (beanText gap "Sensor" ["value", "x1", "value"]) ⟨"src/Sensor.java"⟩
    beanText gap "T" ["x1"] = "class T \x7b\nprivate int x1;\npublic int getX1() \x7b return x1; \x7d\n" ++
        "public void setX1(int value) \x7b this.x1 = value; \x7d\n\x7d\n" ∧
      (∀ p ∈ ["value", "x1", "value"], IsPropertyName p) ∧ IsFreeName "Sensor" ∧ (∀ n, IsBlankText (gap n)) ∧
      scan.entries = [] ∧ scan.value.error = none ∧ scan.value.methods.map Verdict.withoutLine =
        [⟨"Sensor", "getValue", 0, false, some (.getter "value")⟩,
          ⟨"Sensor", "setValue", 0, false, some (.setter "value")⟩,
          ⟨"Sensor", "getX1", 0, false, some (.getter "x1")⟩, ⟨"Sensor", "setX1", 0, false, some (.setter "x1")⟩,
          ⟨"Sensor", "getValue", 0, false, some (.getter "value")⟩,
          ⟨"Sensor", "setValue", 0, false, some (.setter "value")⟩] := by
  intro gap scan
  have hvalue : IsPropertyName "value" := ⟨⟨⟨'v', ['a', 'l', 'u', 'e'], rfl, rfl, rfl⟩, by decide⟩, rfl⟩
  have hx : IsPropertyName "x1" := ⟨⟨⟨'x', ['1'], rfl, rfl, rfl⟩, by decide⟩, rfl⟩
  have hsensor : IsFreeName "Sensor" := ⟨⟨'S', ['e', 'n', 's', 'o', 'r'], rfl, rfl, rfl⟩, by decide⟩
  have hps : ∀ p ∈ ["value", "x1", "value"], IsPropertyName p := by
    simp only [List.forall_mem_cons]
    exact ⟨hvalue, hx, hvalue, List.forall_mem_nil _⟩
  have hgap : ∀ n, IsBlankText (gap n) := by
    intro n
    unfold gap
    split <;> rfl
  exact ⟨rfl, hps, hsensor, hgap, beans_recognised hps hsensor hgap ⟨"src/Sensor.java"⟩⟩

end AccessorScan
