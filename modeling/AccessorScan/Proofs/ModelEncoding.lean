import AccessorScan.Model.Encoding
import AccessorScan.Proofs.JsonRecords

/-!
# `Proofs.ModelEncoding` — the encoding of models loses nothing

Every record of the model is read back from the value that it is written as, so no two models are
written alike. The entry for a body may be left out where there is no body; what is read then is the
same. Lines must be below the limit of counts; there is no condition on texts.

## Contents
- `TypeRef.ofJson?_toJson`, …, `Field.ofJson?_toJson`: the records that hold no members.
- `Callable.WrittenAs`, `Member.WrittenAs`, `TypeDecl.WrittenAs`: the values that stand for a model, with
  the entry for a body left out anywhere where there is none.
- `Callable.body_eq_none_iff_of_ofJson?`: what is read as no body, and what as an empty one.
- `TypeDecl.lines`, `AreCounts`: the lines that are recorded in a declaration are counts.
- `TypeDecl.ofJson?_of_writtenAs`, `TypeDecl.encoding_lossless`.
-/

namespace AccessorScan

/-! ## Records without members -/

theorem TypeKind.ofJson?_toJson (k : TypeKind) : ofJson? k.toJson = some k := by
  cases k <;> rfl

theorem Modifier.ofJson?_toJson (m : Modifier) : ofJson? m.toJson = some m := by
  cases m <;> rfl

theorem TypeRef.ofJson?_toJson (t : TypeRef) : ofJson? t.toJson = some t := by
  cases t <;> rfl

theorem Expression.ofJson?_toJson (e : Expression) : ofJson? e.toJson = some e := by
  cases e <;> rfl

theorem Statement.ofJson?_toJson (s : Statement) : ofJson? s.toJson = some s := by
  cases s with
  | result value =>
      have hreading : ofJson? (Statement.result value).toJson = do
          let value ← Json.option? Expression.ofJson? (Json.option Expression.toJson value)
          return .result value := rfl
      rw [hreading, Json.option?_option (fun e => by cases e <;> nofun)
        fun e _ => Expression.ofJson?_toJson e]
      rfl
  | assignment target value =>
      have hreading : ofJson? (Statement.assignment target value).toJson = do
          let target ← Expression.ofJson? target.toJson
          let value ← Expression.ofJson? value.toJson
          return .assignment target value := rfl
      rw [hreading, Expression.ofJson?_toJson, Expression.ofJson?_toJson]
      rfl
  | expression e =>
      have hreading : ofJson? (Statement.expression e).toJson = do
          let e ← Expression.ofJson? e.toJson
          return .expression e := rfl
      rw [hreading, Expression.ofJson?_toJson]
      rfl
  | other kind => rfl

theorem Parameter.ofJson?_toJson (p : Parameter) : ofJson? p.toJson = some p := by
  have hreading : ofJson? p.toJson = do
      let type ← TypeRef.ofJson? p.type.toJson
      return ⟨p.name, type⟩ := rfl
  rw [hreading, TypeRef.ofJson?_toJson]
  rfl

theorem Modifier.array?_map_toJson (ms : List Modifier) :
    (Json.array (ms.map toJson)).array? ofJson? = some ms :=
  Json.array?_map fun m _ => ofJson?_toJson m

theorem Field.ofJson?_toJson {f : Field} (h : f.line < countLimit) : ofJson? f.toJson = some f := by
  have hreading : ofJson? f.toJson = do
      let type ← TypeRef.ofJson? f.type.toJson
      let modifiers ← (Json.array (f.modifiers.map Modifier.toJson)).array? Modifier.ofJson?
      let line ← (Json.count f.line).count?
      return ⟨f.name, type, modifiers, line⟩ := rfl
  rw [hreading, TypeRef.ofJson?_toJson, Modifier.array?_map_toJson, Json.count?_count h]
  rfl

/-! ## Callables -/

namespace Callable

/-- The entries that stand for a callable: those that are written, or the same without the entry for
    the body where there is no body. -/
inductive WrittenAs (c : Callable) : List (String × Json) → Prop where
  | whole : WrittenAs c c.entries
  | withoutBody (h : c.body = none) : WrittenAs c (c.entries.filter fun e => e.1 != "body")

theorem ofJson?_of_writtenAs {c : Callable} {es : List (String × Json)} (hline : c.line < countLimit)
    (h : c.WrittenAs es) : ofJson? (.object es) = some c := by
  have hparameters : (Json.array (c.parameters.map Parameter.toJson)).array? Parameter.ofJson? =
      some c.parameters := Json.array?_map fun p _ => Parameter.ofJson?_toJson p
  have hbody : Json.option? (Json.array? Statement.ofJson?)
      (Json.option (fun body => .array (body.map Statement.toJson)) c.body) = some c.body :=
    Json.option?_option nofun fun body _ => Json.array?_map fun s _ => Statement.ofJson?_toJson s
  have hreading : ∀ body? : Option (Option (List Statement)),
      (Json.Layout.keyed es).optional (Json.array? Statement.ofJson?) 4 "body" = body? →
      ofJson? (.object es) = do
        let parameters ← (Json.array (c.parameters.map Parameter.toJson)).array? Parameter.ofJson?
        let result ← TypeRef.ofJson? c.result.toJson
        let modifiers ← (Json.array (c.modifiers.map Modifier.toJson)).array? Modifier.ofJson?
        let body ← body?
        let line ← (Json.count c.line).count?
        return ⟨c.name, parameters, result, modifiers, body, line⟩ := by
    rintro _ rfl
    cases h <;> rfl
  have hread : (Json.Layout.keyed es).optional (Json.array? Statement.ofJson?) 4 "body" =
      some c.body := by
    cases h with
    | whole => exact hbody
    | withoutBody hnone =>
        rw [hnone]
        rfl
  rw [hreading _ hread, hparameters, TypeRef.ofJson?_toJson, Modifier.array?_map_toJson,
    Json.count?_count hline]
  rfl

/-- The body of a callable is what the entry for it is read as. -/
theorem optional_of_ofJson? {es : List (String × Json)} {c : Callable}
    (h : ofJson? (.object es) = some c) :
    (Json.Layout.keyed es).optional (Json.array? Statement.ofJson?) 4 "body" = some c.body := by
  have hreading : ofJson? (.object es) = do
      let l : Json.Layout := .keyed es
      return ⟨← l.required Json.string? 0 "name",
        ← l.required (Json.array? Parameter.ofJson?) 1 "parameters",
        ← l.required TypeRef.ofJson? 2 "return_type",
        ← l.required (Json.array? Modifier.ofJson?) 3 "modifiers",
        ← l.optional (Json.array? Statement.ofJson?) 4 "body", ← l.required Json.count? 5 "line"⟩ :=
    rfl
  simp only [hreading, Option.bind_eq_bind, Option.bind_eq_some_iff, Option.pure_def,
    Option.some_inj] at h
  obtain ⟨name, -, parameters, -, result, -, modifiers, -, body, hbody, line, -, rfl⟩ := h
  exact hbody

/-- No entry for the body and an entry that is `null` are read as no body. -/
theorem body_eq_none_iff_of_ofJson? {es : List (String × Json)} {c : Callable}
    (h : ofJson? (.object es) = some c) :
    c.body = none ↔
      (Json.object es).get? "body" = none ∨ (Json.object es).get? "body" = some .null := by
  have hread := optional_of_ofJson? h
  rw [← Json.Layout.optional_keyed_eq_none_iff, hread, Option.some_inj]

/-- An empty array is read as an empty body, and nothing else is. -/
theorem body_eq_nil_iff_of_ofJson? {es : List (String × Json)} {c : Callable}
    (h : ofJson? (.object es) = some c) :
    c.body = some [] ↔ (Json.object es).get? "body" = some (.array []) := by
  have hread := optional_of_ofJson? h
  rw [← Json.Layout.optional_keyed_eq_nil_iff, hread, Option.some_inj]

end Callable

/-! ## Members and type declarations -/

mutual

/-- The entries that stand for a type declaration. -/
inductive TypeDecl.WrittenAs : TypeDecl → List (String × Json) → Prop where
  | intro {name : String} {kind : TypeKind} {line : Nat} {members : List Member} {items : List Json}
      (h : Member.AllWrittenAs members items) :
      TypeDecl.WrittenAs ⟨name, kind, line, members⟩
        [("name", .string name), ("kind", kind.toJson), ("line", .count line),
          ("members", .array items)]

/-- The values that stand for a member. -/
inductive Member.WrittenAs : Member → Json → Prop where
  | field (f : Field) :
      Member.WrittenAs (.field f) (.object (("member", .string "field") :: f.entries))
  | method {c : Callable} {es : List (String × Json)} (h : c.WrittenAs es) :
      Member.WrittenAs (.method c) (.object (("member", .string "method") :: es))
  | constructor {c : Callable} {es : List (String × Json)} (h : c.WrittenAs es) :
      Member.WrittenAs (.constructor c) (.object (("member", .string "constructor") :: es))
  | type {t : TypeDecl} {es : List (String × Json)} (h : TypeDecl.WrittenAs t es) :
      Member.WrittenAs (.type t) (.object (("member", .string "type") :: es))
  | other (kind : String) :
      Member.WrittenAs (.other kind)
        (.object [("member", .string "other"), ("kind", .string kind)])

inductive Member.AllWrittenAs : List Member → List Json → Prop where
  | nil : Member.AllWrittenAs [] []
  | cons {m : Member} {ms : List Member} {v : Json} {vs : List Json} (h : Member.WrittenAs m v)
      (hrest : Member.AllWrittenAs ms vs) : Member.AllWrittenAs (m :: ms) (v :: vs)

end

mutual

theorem TypeDecl.writtenAs_entries : ∀ t : TypeDecl, t.WrittenAs t.entries
  | ⟨_, _, _, members⟩ => .intro (Member.allWrittenAs_listToJson members)

theorem Member.writtenAs_toJson : ∀ m : Member, m.WrittenAs m.toJson
  | .field f => .field f
  | .method _ => .method .whole
  | .constructor _ => .constructor .whole
  | .type t => .type t.writtenAs_entries
  | .other kind => .other kind

theorem Member.allWrittenAs_listToJson : ∀ ms : List Member,
    Member.AllWrittenAs ms (Member.listToJson ms)
  | [] => .nil
  | m :: ms => .cons m.writtenAs_toJson (Member.allWrittenAs_listToJson ms)

end

mutual

/-- The lines that are recorded in a declaration. -/
def TypeDecl.lines : TypeDecl → List Nat
  | ⟨_, _, line, members⟩ => line :: Member.linesAll members

def Member.lines : Member → List Nat
  | .field f => [f.line]
  | .method c => [c.line]
  | .constructor c => [c.line]
  | .type t => t.lines
  | .other _ => []

def Member.linesAll : List Member → List Nat
  | [] => []
  | m :: rest => m.lines ++ Member.linesAll rest

end

/-- All lines that are recorded are counts. -/
def AreCounts (lines : List Nat) : Prop := ∀ n ∈ lines, n < countLimit

instance (lines : List Nat) : Decidable (AreCounts lines) :=
  inferInstanceAs (Decidable (∀ n ∈ lines, n < countLimit))

theorem areCounts_cons {n : Nat} {lines : List Nat} :
    AreCounts (n :: lines) ↔ n < countLimit ∧ AreCounts lines := List.forall_mem_cons

theorem areCounts_append {ns lines : List Nat} :
    AreCounts (ns ++ lines) ↔ AreCounts ns ∧ AreCounts lines := List.forall_mem_append

/-- The declaration that is read from its entries, given what the items of its members are read as. -/
theorem TypeDecl.ofLayout?_written {name : String} {kind : TypeKind} {line : Nat} {items : List Json}
    {members : List Member} (hline : line < countLimit)
    (hitems : Member.ofItems? items = some members) :
    let es : List (String × Json) := [("name", .string name), ("kind", kind.toJson),
      ("line", .count line), ("members", .array items)]
    ofLayout? (.keyed es) (Member.listUnder? es) = some ⟨name, kind, line, members⟩ := by
  intro es
  have hmembers : Member.listUnder? es = Member.ofItems? items := rfl
  have hreading : ofLayout? (.keyed es) (some members) = do
      let kind ← TypeKind.ofJson? kind.toJson
      let line ← (Json.count line).count?
      return ⟨name, kind, line, members⟩ := rfl
  rw [hmembers, hitems, hreading, TypeKind.ofJson?_toJson, Json.count?_count hline]
  rfl

mutual

theorem TypeDecl.ofJson?_of_writtenAs :
    ∀ (t : TypeDecl) {es : List (String × Json)}, AreCounts t.lines → t.WrittenAs es →
      TypeDecl.ofJson? (.object es) = some t
  | ⟨_, _, _, members⟩, _, hlines, .intro h => by
      obtain ⟨hline, hmembers⟩ := areCounts_cons.mp hlines
      exact TypeDecl.ofLayout?_written hline (Member.ofItems?_of_writtenAs members hmembers h)

theorem Member.ofJson?_of_writtenAs :
    ∀ (m : Member) {v : Json}, AreCounts m.lines → m.WrittenAs v →
      Member.ofJson? v = some m
  | .field f, _, hlines, .field _ => by
      have hline : f.line < countLimit := (areCounts_cons.mp hlines).1
      show (Field.ofJson? f.toJson).map Member.field = _
      rw [Field.ofJson?_toJson hline]
      rfl
  | .method c, _, hlines, @Member.WrittenAs.method _ es h => by
      have hline : c.line < countLimit := (areCounts_cons.mp hlines).1
      have hreading : Member.ofJson? (.object (("member", .string "method") :: es)) =
          (Callable.ofJson? (.object es)).map Member.method := by
        cases h <;> rfl
      rw [hreading, Callable.ofJson?_of_writtenAs hline h]
      rfl
  | .constructor c, _, hlines, @Member.WrittenAs.constructor _ es h => by
      have hline : c.line < countLimit := (areCounts_cons.mp hlines).1
      have hreading : Member.ofJson? (.object (("member", .string "constructor") :: es)) =
          (Callable.ofJson? (.object es)).map Member.constructor := by
        cases h <;> rfl
      rw [hreading, Callable.ofJson?_of_writtenAs hline h]
      rfl
  | .type t, _, ht, @Member.WrittenAs.type _ es h => by
      have hreading : Member.ofJson? (.object (("member", .string "type") :: es)) = do
          let t ← TypeDecl.ofLayout? (.keyed es) (Member.listUnder? es)
          return .type t := by
        cases h
        rfl
      have hread : TypeDecl.ofLayout? (.keyed es) (Member.listUnder? es) = some t :=
        TypeDecl.ofJson?_of_writtenAs t ht h
      rw [hreading, hread]
      rfl
  | .other _, _, _, .other _ => rfl

theorem Member.ofItems?_of_writtenAs :
    ∀ (ms : List Member) {vs : List Json}, AreCounts (Member.linesAll ms) →
      Member.AllWrittenAs ms vs → Member.ofItems? vs = some ms
  | [], _, _, .nil => rfl
  | m :: ms, _, hlines, @Member.AllWrittenAs.cons _ _ v vs h hrest => by
      obtain ⟨hm, hms⟩ := areCounts_append.mp hlines
      have hreading : Member.ofItems? (v :: vs) = do
          let m ← Member.ofJson? v
          let ms ← Member.ofItems? vs
          return m :: ms := rfl
      rw [hreading, Member.ofJson?_of_writtenAs m hm h, Member.ofItems?_of_writtenAs ms hms hrest]
      rfl

end

/-! ## Bodies -/

/-- A member that is read as a method or a constructor is read from its entries without the tag. -/
theorem Member.callable_of_ofJson? {es : List (String × Json)} {m : Member} {c : Callable}
    (h : ofJson? (.object es) = some m) (hc : m.callable? = some c) :
    Callable.ofJson? (.object (es.filter fun e => e.1 != "member")) = some c := by
  have hreading : ofJson? (.object es) = ((Json.object es).tagged? "member").bind fun r =>
      ofTagged? r.1 r.2 (listUnder? es) := rfl
  rw [hreading, Option.bind_eq_some_iff] at h
  obtain ⟨⟨tag, content⟩, htag, hread⟩ := h
  simp only [Json.tagged?, Option.bind_eq_bind, Option.bind_eq_some_iff, Option.pure_def,
    Option.some_inj, Prod.mk.injEq] at htag
  obtain ⟨_, -, _, -, -, rfl⟩ := htag
  unfold ofTagged? at hread
  split at hread
  · obtain ⟨f, -, rfl⟩ := Option.map_eq_some_iff.mp hread
    cases hc
  · obtain ⟨d, hd, rfl⟩ := Option.map_eq_some_iff.mp hread
    obtain rfl := Option.some.inj hc
    exact hd
  · obtain ⟨d, hd, rfl⟩ := Option.map_eq_some_iff.mp hread
    obtain rfl := Option.some.inj hc
    exact hd
  · simp only [Option.bind_eq_bind, Option.bind_eq_some_iff, Option.pure_def,
      Option.some_inj] at hread
    obtain ⟨_, -, _, -, rfl⟩ := hread
    cases hc
  · simp only [Option.bind_eq_bind, Option.bind_eq_some_iff, Option.pure_def,
      Option.some_inj] at hread
    obtain ⟨_, -, _, -, rfl⟩ := hread
    cases hc
  · cases hread

/-- A body that is `null` or left out is read as none, and only an empty array as an empty one. -/
theorem Member.body_iff_of_ofJson? {es : List (String × Json)} {m : Member} {c : Callable}
    (h : ofJson? (.object es) = some m) (hc : m.callable? = some c) :
    (c.body = none ↔
      (Json.object es).get? "body" = none ∨ (Json.object es).get? "body" = some .null) ∧
    (c.body = some [] ↔ (Json.object es).get? "body" = some (.array [])) := by
  have hread := callable_of_ofJson? h hc
  have hget : (Json.object (es.filter fun e => e.1 != "member")).get? "body" =
      (Json.object es).get? "body" := Json.get?_filter_ne (by decide)
  have hnone := Callable.body_eq_none_iff_of_ofJson? hread
  have hnil := Callable.body_eq_nil_iff_of_ofJson? hread
  rw [hget] at hnone hnil
  exact ⟨hnone, hnil⟩

/-! ## The whole encoding -/

/-- What is read back from its written form is told by it. -/
theorem eq_of_toJson_eq {α : Type} {write : α → Json} {read : Json → Option α} {a b : α}
    (ha : read (write a) = some a) (hb : read (write b) = some b) (h : write a = write b) :
    a = b := by
  rw [h, hb] at ha
  exact (Option.some.inj ha).symm

namespace TypeDecl

theorem ofJson?_toJson {t : TypeDecl} (h : AreCounts t.lines) : ofJson? t.toJson = some t :=
  t.ofJson?_of_writtenAs h t.writtenAs_entries

/-- **The encoding of models loses nothing.** A declaration whose lines are counts is read back from
    what is written for it, also where the entries for bodies that are not there are left out. A member
    without a body is one whose body is `null` or left out, and an empty body is another thing. No two
    types, expressions, statements, members or declarations are written alike, whatever the texts in
    them are. -/
theorem encoding_lossless :
    (∀ t : TypeDecl, AreCounts t.lines →
      ofJson? t.toJson = some t ∧
      ∀ es, t.WrittenAs es → ofJson? (.object es) = some t) ∧
    (∀ es m c, Member.ofJson? (.object es) = some m → m.callable? = some c →
      (c.body = none ↔
        (Json.object es).get? "body" = none ∨ (Json.object es).get? "body" = some .null) ∧
      (c.body = some [] ↔ (Json.object es).get? "body" = some (.array []))) ∧
    (∀ r s : TypeRef, r.toJson = s.toJson → r = s) ∧
    (∀ e f : Expression, e.toJson = f.toJson → e = f) ∧
    (∀ a b : Statement, a.toJson = b.toJson → a = b) ∧
    (∀ m n : Member, AreCounts m.lines → AreCounts n.lines → m.toJson = n.toJson → m = n) ∧
    ∀ t u : TypeDecl, AreCounts t.lines → AreCounts u.lines → t.toJson = u.toJson → t = u := by
  refine ⟨fun t ht => ⟨ofJson?_toJson ht, fun es => t.ofJson?_of_writtenAs ht⟩,
    fun es m c => Member.body_iff_of_ofJson?,
    fun r s => eq_of_toJson_eq r.ofJson?_toJson s.ofJson?_toJson,
    fun e f => eq_of_toJson_eq e.ofJson?_toJson f.ofJson?_toJson,
    fun a b => eq_of_toJson_eq a.ofJson?_toJson b.ofJson?_toJson, fun m n hm hn => ?_,
    fun t u ht hu => eq_of_toJson_eq (ofJson?_toJson ht) (ofJson?_toJson hu)⟩
  exact eq_of_toJson_eq (m.ofJson?_of_writtenAs hm m.writtenAs_toJson)
    (n.ofJson?_of_writtenAs hn n.writtenAs_toJson)

/-- A method without a body whose texts are words of the encoding. -/
def silentMethod : Callable :=
  ⟨"body", [⟨"type", .reference "boolean"⟩], .primitive "void", [.abstract], none, 18446744073709551615⟩

/-- A record in an enumeration, with an empty body, a body of all statements and one that is not there. -/
def deceptive : TypeDecl :=
  ⟨"null", .enumeration, 0,
    [.type ⟨"members", .record, 1,
      [.constructor ⟨"", [], .void, [], some [], 2⟩,
        .method ⟨"constructor", [], .boolean, [], some [.result none, .result (some (.name "self_field")),
          .assignment (.selfField "name") (.other "literal"), .expression (.literal "null"),
          .other "return"], 3⟩,
        .method silentMethod]⟩,
      .other "field", .field ⟨"\"", .reference "void", [.privateAccess, .static], 4⟩]⟩

theorem encoding_lossless_deceptive :
    AreCounts deceptive.lines ∧ ofJson? deceptive.toJson = some deceptive ∧
    (∀ es, deceptive.WrittenAs es → ofJson? (.object es) = some deceptive) ∧
    (∀ m c, Member.ofJson? (.object [("member", .string "method"), ("name", .string "body"),
      ("parameters", .array []), ("return_type", TypeRef.void.toJson), ("modifiers", .array []),
      ("line", .count 0)]) = some m → m.callable? = some c → c.body = none) ∧
    (TypeRef.primitive "void").toJson ≠ TypeRef.void.toJson ∧
    (Expression.name "x").toJson ≠ (Expression.selfField "x").toJson ∧
    (Statement.result none).toJson ≠ (Statement.result (some (.literal "null"))).toJson ∧
    (Member.method silentMethod).toJson ≠ (Member.constructor silentMethod).toJson ∧
    ∀ t : TypeDecl, AreCounts t.lines → t.toJson = deceptive.toJson → t = deceptive := by
  have hcounts : AreCounts deceptive.lines := by decide
  have hsilent : AreCounts [silentMethod.line] := by decide
  obtain ⟨hread, hbody, htypes, hexpressions, hstatements, hmembers, hdeclarations⟩ :=
    encoding_lossless
  refine ⟨hcounts, (hread _ hcounts).1, (hread _ hcounts).2,
    fun m c hm hc => (hbody _ m c hm hc).1.mpr (.inl (by decide)), ?_, ?_, ?_, ?_,
    fun t ht => hdeclarations t _ ht hcounts⟩
  · intro h
    cases htypes _ _ h
  · intro h
    cases hexpressions _ _ h
  · intro h
    cases hstatements _ _ h
  · intro h
    cases hmembers (.method silentMethod) (.constructor silentMethod) hsilent hsilent h

end TypeDecl

end AccessorScan
