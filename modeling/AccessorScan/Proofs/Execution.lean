import AccessorScan.Proofs.Classification

/-!
# `Proofs.Execution` — what accessors do when they are called

The model's bodies are given a meaning. An object holds a value for each field, a call binds the
parameters of the method, a bare name stands for the parameter of that name if there is one and for the
field otherwise, and a qualified name always for the field. What the model does not open (literals,
calls, other statements) is left to an arbitrary `Interpretation`. Under every interpretation a getter
returns its field and writes nothing, and a setter writes its field and nothing else.

## Contents
- `Frame`, `Interpretation`, `eval`, `step`, `run`: the meaning of bodies.
- `isBound_enter_iff`: a call binds exactly the parameters.
- `run_result`, `run_assignment`: the bodies of accessors.
- `accessor_sound`.
-/

namespace AccessorScan.Execution

universe u

variable {V : Type u}

/-! ## The meaning of bodies -/

/-- The current object and the parameters of the running call. -/
structure Frame (V : Type u) where
  fields : String → V
  locals : List (String × V)

namespace Frame

/-- The frame in which a call of `c` with these arguments starts. -/
def enter (object : String → V) (c : Callable) (args : List V) : Frame V :=
  ⟨object, (c.parameters.map Parameter.name).zip args⟩

/-- The name stands for a parameter. -/
def IsBound (s : Frame V) (n : String) : Prop := (s.locals.lookup n).isSome = true

/-- The value of a bare name. A parameter hides the field of its name. -/
def read (s : Frame V) (n : String) : V := (s.locals.lookup n).getD (s.fields n)

def setField (s : Frame V) (n : String) (v : V) : Frame V :=
  { s with fields := fun m => if m = n then v else s.fields m }

def setLocal (s : Frame V) (n : String) (v : V) : Frame V :=
  { s with locals := s.locals.map fun (m, w) => (m, if m = n then v else w) }

/-- Stores into what a bare name stands for. -/
def write (s : Frame V) (n : String) (v : V) : Frame V :=
  if (s.locals.lookup n).isSome then s.setLocal n v else s.setField n v

end Frame

/-- What a statement leads to: the next one, or the end of the call with its result. -/
inductive Step (V : Type u) where
  | goesOn (s : Frame V)
  | returns (s : Frame V) (result : Option V)

/-- The meaning of what the model keeps only by its kind. Expressions have no effect. -/
structure Interpretation (V : Type u) where
  value : Expression → Frame V → V
  effect : Statement → Frame V → Step V

def eval (I : Interpretation V) (s : Frame V) : Expression → V
  | .name n => s.read n
  | .selfField n => s.fields n
  | e => I.value e s

/-- One statement. -/
def step (I : Interpretation V) (s : Frame V) : Statement → Step V
  | .result value => .returns s (value.map (eval I s))
  | .assignment (.name n) value => .goesOn (s.write n (eval I s value))
  | .assignment (.selfField n) value => .goesOn (s.setField n (eval I s value))
  | other => I.effect other s

/-- A body, up to its end or to the statement that returns. -/
def run (I : Interpretation V) (s : Frame V) : List Statement → Step V
  | [] => .goesOn s
  | st :: rest =>
      match step I s st with
      | .goesOn next => run I next rest
      | .returns last result => .returns last result

/-! ## Names under a call -/

/-- **A call binds exactly the parameters.** -/
theorem isBound_enter_iff {object : String → V} {c : Callable} {args : List V}
    (hargs : args.length = c.parameters.length) {n : String} :
    (Frame.enter object c args).IsBound n ↔ c.hasParameter n = true := by
  have hlen : (c.parameters.map Parameter.name).length ≤ args.length :=
    Nat.le_of_eq (by rw [List.length_map, hargs])
  -- with as many arguments as parameters no name is cut off
  have hnames : ((Frame.enter object c args).locals).map Prod.fst =
      c.parameters.map Parameter.name := List.map_fst_zip hlen
  have hbound : (Frame.enter object c args).IsBound n ↔
      n ∈ (Frame.enter object c args).locals.map Prod.fst := by
    rw [Frame.IsBound, List.lookup_isSome_iff, List.mem_map]
    exact exists_congr fun l => and_congr_right fun _ => by rw [beq_iff_eq, eq_comm]
  rw [hbound, hnames, Callable.hasParameter, List.any_eq_true, List.mem_map]
  simp only [beq_iff_eq]

theorem read_of_not_isBound {s : Frame V} {n : String} (h : ¬ s.IsBound n) :
    s.read n = s.fields n := by
  unfold Frame.IsBound at h
  unfold Frame.read
  rw [Option.not_isSome_iff_eq_none.mp h, Option.getD_none]

theorem write_of_not_isBound {s : Frame V} {n : String} (h : ¬ s.IsBound n) (v : V) :
    s.write n v = s.setField n v := if_neg h

/-! ## Accessors -/

/-- A body that returns a name of the field, in a frame that does not hide the field. -/
theorem run_result {I : Interpretation V} {s : Frame V} {e : Expression} {p : String}
    (hrefers : e.Refers p) (hfree : ¬ s.IsBound p) :
    run I s [.result (some e)] = .returns s (some (s.fields p)) := by
  have heval : eval I s e = s.fields p := by
    rcases hrefers with rfl | rfl
    · exact read_of_not_isBound hfree
    · rfl
  show Step.returns s (some (eval I s e)) = _
  rw [heval]

/-- A body that assigns a name of the field, in a frame that does not hide that name. -/
theorem run_assignment {I : Interpretation V} {s : Frame V} {target value : Expression} {p : String}
    (htarget : target = .selfField p ∨ target = .name p ∧ ¬ s.IsBound p) :
    run I s [.assignment target value] = .goesOn (s.setField p (eval I s value)) := by
  rcases htarget with rfl | ⟨rfl, hfree⟩
  · rfl
  · show Step.goesOn (s.write p (eval I s value)) = _
    rw [write_of_not_isBound hfree]

/-- The type declares a private instance field of this name. -/
def DeclaresPrivateInstance (t : TypeDecl) (p : String) : Prop :=
  ∃ f ∈ t.fields, f.name = p ∧ .privateAccess ∈ f.modifiers ∧ .static ∉ f.modifiers

theorem DeclaresPrivateInstance.of_first {t : TypeDecl} {p : String} (h : t.HasPrivateInstance p) :
    DeclaresPrivateInstance t p := by
  obtain ⟨f, ⟨before, after, hfields, hname, -⟩, hprivate, hstatic⟩ := h
  exact ⟨f, by rw [hfields]; simp, hname, hprivate, hstatic⟩

/-- Every call returns the current value of the field `p` and leaves the object and the parameters as
    they were. -/
def ReadsField (c : Callable) (p : String) : Prop :=
  ∃ body, c.body = some body ∧ ∀ (V : Type u) (I : Interpretation V) (object : String → V)
    (args : List V), args.length = c.parameters.length →
    run I (.enter object c args) body = .returns (.enter object c args) (some (object p))

/-- Every call stores the value of the assigned expression into the field `p`, leaves every other field
    and every parameter as it was, and its target is no parameter. -/
def WritesField (c : Callable) (p : String) : Prop :=
  ∃ target value, c.body = some [.assignment target value] ∧
    ∀ (V : Type u) (I : Interpretation V) (object : String → V) (args : List V),
      args.length = c.parameters.length →
      ∃ last, run I (.enter object c args) [.assignment target value] = .goesOn last ∧
        last.fields p = eval I (.enter object c args) value ∧
        (∀ n, n ≠ p → last.fields n = object n) ∧
        last.locals = (Frame.enter object c args).locals ∧
        ∀ n, target = .name n → ¬ (Frame.enter object c args).IsBound n

theorem readsField_of_getter {t : TypeDecl} {m : Member} {p : String} (h : IsGetterOf t m p) :
    ∃ c, m = .method c ∧ ReadsField.{u} c p := by
  obtain ⟨c, e, rfl, -, hparams, hbody, hrefers, -⟩ := h
  refine ⟨c, rfl, _, hbody, fun V I object args hargs => run_result hrefers ?_⟩
  rw [isBound_enter_iff hargs, Callable.hasParameter, hparams]
  exact Bool.false_ne_true

theorem writesField_of_setter {t : TypeDecl} {m : Member} {p : String} (h : IsSetterOf t m p) :
    ∃ c, m = .method c ∧ WritesField.{u} c p := by
  obtain ⟨c, a, target, value, rfl, -, -, hparams, hbody, htarget, -⟩ := h
  refine ⟨c, rfl, target, value, hbody, fun V I object args hargs => ?_⟩
  -- the guard against shadowing is what keeps a bare target from being bound
  have hfree : ∀ n, target = .name n → ¬ (Frame.enter object c args).IsBound n := by
    intro n hn
    rw [isBound_enter_iff hargs, Bool.not_eq_true,
      Callable.hasParameter_eq_false_iff hparams]
    rcases htarget with rfl | ⟨rfl, hne⟩
    · cases hn
    · cases hn
      exact hne
  have htarget' : target = .selfField p ∨
      target = .name p ∧ ¬ (Frame.enter object c args).IsBound p :=
    htarget.imp id fun h => ⟨h.1, hfree p h.1⟩
  refine ⟨_, run_assignment htarget', if_pos rfl, fun n hn => if_neg hn, rfl, hfree⟩

/-- **Verdicts are sound.** A method judged a getter of `p` reads, and one judged a setter writes,
    exactly the field `p` of its object, and `p` is a private instance field that the type declares. -/
theorem accessor_sound (t : TypeDecl) (m : Member) (p : String) :
    (classify t m = some (.getter p) →
      ∃ c, m = .method c ∧ ReadsField.{u} c p ∧ DeclaresPrivateInstance t p) ∧
    (classify t m = some (.setter p) →
      ∃ c, m = .method c ∧ WritesField.{u} c p ∧ DeclaresPrivateInstance t p) := by
  constructor
  · intro h
    have hgetter := classify_eq_getter_iff.mp h
    obtain ⟨c, hm, hreads⟩ := readsField_of_getter hgetter
    obtain ⟨-, -, -, -, -, -, -, hfield⟩ := hgetter
    exact ⟨c, hm, hreads, .of_first hfield⟩
  · intro h
    have hsetter := classify_eq_setter_iff.mp h
    obtain ⟨c, hm, hwrites⟩ := writesField_of_setter hsetter
    obtain ⟨-, -, -, -, -, -, -, -, -, -, hfield⟩ := hsetter
    exact ⟨c, hm, hwrites, .of_first hfield⟩

/-- A getter by its bare name, and a setter whose parameter has another name than its field. -/
theorem accessor_sound_active :
    let t : TypeDecl := ⟨"Lamp", .ordinary, 1, [.field ⟨"on", .boolean, [.privateAccess], 2⟩]⟩
    let getter : Callable := ⟨"isOn", [], .boolean, [], some [.result (some (.name "on"))], 3⟩
    let setter : Callable :=
      ⟨"setOn", [⟨"lit", .boolean⟩], .void, [], some [.assignment (.name "on") (.name "lit")], 4⟩
    classify t (.method getter) = some (.getter "on") ∧ ReadsField.{0} getter "on" ∧
      classify t (.method setter) = some (.setter "on") ∧ WritesField.{0} setter "on" := by
  intro t getter setter
  have hgetter : classify t (.method getter) = some (.getter "on") := by decide
  have hsetter : classify t (.method setter) = some (.setter "on") := by decide
  obtain ⟨c, hc, hreads, -⟩ := (accessor_sound.{0} t (.method getter) "on").1 hgetter
  obtain ⟨d, hd, hwrites, -⟩ := (accessor_sound.{0} t (.method setter) "on").2 hsetter
  obtain rfl := Member.method.inj hc
  obtain rfl := Member.method.inj hd
  exact ⟨hgetter, hreads, hsetter, hwrites⟩

end AccessorScan.Execution
