import AccessorScan.Syntax.Rule

/-!
# `Proofs.Reading` — readings of rules, without fuel

`Rule.run` spends fuel and keeps track of how far it came. What it finds is a reading: a derivation
that says which rule reads which lexemes and what it makes of them. Properties of what a grammar reads
are proved by induction on readings.

## Contents
- `Rule.Reads`: the readings of the rules of a grammar.
- `readLexeme_eq_some`, `readJoined_eq_some`, `readFinish_eq_some`: what single lexemes leave.
- `Rule.reads_of_run`: what a run finds is a reading.
-/

namespace AccessorScan

namespace Rule

variable {P : Type}

/-- The trees that an `around` rule starts with: those read so far, in a role if there is one. -/
def taken (r? : Option Role) (trees : List Tree) : List Tree :=
  match r? with
  | Option.some r => labelled r trees
  | none => trees

/-- `Reads g rule trees input ts rest`: by the grammar `g` the rule may go from the trees and the input
    to the trees `ts` and the rest of the input. -/
inductive Reads (g : P → Rule P) :
    Rule P → List Tree → List Lexeme → List Tree → List Lexeme → Prop where
  | phrase {p : P} {trees ts : List Tree} {input rest : List Lexeme}
      (h : Reads g (g p) [] input ts rest) : Reads g (.phrase p) trees input (trees ++ ts) rest
  | lexeme {r : LexemeRule} {trees ts : List Tree} {input rest : List Lexeme}
      (h : readLexeme r trees input = some (ts, rest)) : Reads g (.lexeme r) trees input ts rest
  | joined {texts : List String} {trees ts : List Tree} {input rest : List Lexeme}
      (h : readJoined texts trees input = some (ts, rest)) :
      Reads g (.joined texts) trees input ts rest
  | finish {trees ts : List Tree} {input rest : List Lexeme}
      (h : readFinish trees input = some (ts, rest)) : Reads g .finish trees input ts rest
  | allNil {trees : List Tree} {input : List Lexeme} : Reads g (.all []) trees input trees input
  | allCons {r : Rule P} {rs : List (Rule P)} {trees mid ts : List Tree}
      {input between rest : List Lexeme} (hfirst : Reads g r trees input mid between)
      (hrest : Reads g (.all rs) mid between ts rest) : Reads g (.all (r :: rs)) trees input ts rest
  | any {r : Rule P} {rs : List (Rule P)} {trees ts : List Tree} {input rest : List Lexeme}
      (hr : r ∈ rs) (h : Reads g r trees input ts rest) : Reads g (.any rs) trees input ts rest
  | manyNil {r : Rule P} {trees : List Tree} {input : List Lexeme} :
      Reads g (.many r) trees input trees input
  | manyCons {r : Rule P} {trees mid ts : List Tree} {input between rest : List Lexeme}
      (hfirst : Reads g r trees input mid between)
      (hrest : Reads g (.many r) mid between ts rest) : Reads g (.many r) trees input ts rest
  | role {r : Role} {rule : Rule P} {trees ts : List Tree} {input rest : List Lexeme}
      (h : Reads g rule [] input ts rest) :
      Reads g (.role r rule) trees input (trees ++ labelled r ts) rest
  | node {kind : String} {rule : Rule P} {trees ts : List Tree} {input rest : List Lexeme}
      (h : Reads g rule [] input ts rest) :
      Reads g (.node kind rule) trees input (trees ++ Tree.wrap kind ts) rest
  | around {kind : String} {r? : Option Role} {rule : Rule P} {trees ts : List Tree}
      {input rest : List Lexeme} (h : Reads g rule (taken r? trees) input ts rest) :
      Reads g (.around kind r? rule) trees input (Tree.wrap kind ts) rest
  | next {wanted : Bool} {texts : List String} {trees : List Tree} {input : List Lexeme}
      (h : isNext texts input = wanted) : Reads g (.next wanted texts) trees input trees input
  | after {kinds : List String} {trees : List Tree} {input : List Lexeme}
      (h : isAfter kinds trees = true) : Reads g (.after kinds) trees input trees input

theorem found?_map_eq_some {f : List Tree → List Tree} {o : Outcome} {ts : List Tree}
    {rest : List Lexeme} (h : (o.map f).found? = some (ts, rest)) :
    ∃ inner, o.found? = some (inner, rest) ∧ f inner = ts := by
  rw [Outcome.found?_map, Option.map_eq_some_iff] at h
  obtain ⟨⟨inner, rest'⟩, ho, heq⟩ := h
  obtain ⟨hts, rfl⟩ := Prod.mk.inj heq
  exact ⟨inner, ho, hts⟩

theorem found?_andThen_eq_some {f : List Tree → List Lexeme → Outcome} {o : Outcome} {ts : List Tree}
    {rest : List Lexeme} (h : (o.andThen f).found? = some (ts, rest)) :
    ∃ mid between, o.found? = some (mid, between) ∧ (f mid between).found? = some (ts, rest) := by
  rw [Outcome.found?_andThen, Option.bind_eq_some_iff] at h
  obtain ⟨⟨mid, between⟩, ho, hf⟩ := h
  exact ⟨mid, between, ho, hf⟩

/-! ## What single lexemes leave -/

variable {trees ts : List Tree} {input rest : List Lexeme}

theorem readLexeme_eq_some {r : LexemeRule} (h : readLexeme r trees input = some (ts, rest)) :
    ∃ l kind named, input = l :: rest ∧ r.leaf? l = some (kind, named) ∧
      ts = trees ++ l.leaves kind named := by
  cases input with
  | nil => cases h
  | cons l input =>
      obtain ⟨⟨kind, named⟩, hleaf, hts⟩ := Option.map_eq_some_iff.mp h
      obtain ⟨rfl, rfl⟩ := Prod.mk.inj hts
      exact ⟨l, kind, named, rfl, hleaf, rfl⟩

theorem readJoined_eq_some {texts : List String} (h : readJoined texts trees input = some (ts, rest)) :
    ∃ l, joined? texts input = some (l, rest) ∧ ts = trees ++ l.leaves l.text false := by
  obtain ⟨⟨l, after⟩, hl, hts⟩ := Option.map_eq_some_iff.mp h
  obtain ⟨rfl, rfl⟩ := Prod.mk.inj hts
  exact ⟨l, hl, rfl⟩

theorem readFinish_eq_some (h : readFinish trees input = some (ts, rest)) :
    ∃ l, input = l :: rest ∧ l.kind = .finish ∧ ts = trees ++ l.asides.map Aside.leaf := by
  cases input with
  | nil => cases h
  | cons l input =>
      obtain ⟨hkind, hts⟩ := Option.ite_none_right_eq_some.mp h
      obtain ⟨rfl, rfl⟩ := Prod.mk.inj (Option.some.inj hts)
      exact ⟨l, rfl, hkind, rfl⟩

/-! ## Runs -/

/-- **Runs are readings.** What a run of a rule finds, the rule may read. -/
theorem reads_of_run {g : P → Rule P} :
    ∀ {fuel : Nat} {rule : Rule P} {trees ts : List Tree} {input rest : List Lexeme},
      (run g fuel rule trees input).found? = some (ts, rest) → Reads g rule trees input ts rest := by
  intro fuel
  induction fuel with
  | zero => intro rule trees ts input rest h; cases h
  | succ fuel ih =>
      intro rule trees ts input rest h
      cases rule with
      | phrase p =>
          obtain ⟨inner, hinner, rfl⟩ := found?_map_eq_some h
          exact .phrase (ih hinner)
      | lexeme r =>
          rw [run, Outcome.found?_ofOption] at h
          exact .lexeme h
      | joined texts =>
          rw [run, Outcome.found?_ofOption] at h
          exact .joined h
      | finish =>
          rw [run, Outcome.found?_ofOption] at h
          exact .finish h
      | all rs =>
          cases rs with
          | nil =>
              obtain ⟨rfl, rfl⟩ := Prod.mk.inj (Option.some.inj h)
              exact .allNil
          | cons r rs =>
              obtain ⟨mid, between, hfirst, hrest⟩ := found?_andThen_eq_some h
              exact .allCons (ih hfirst) (ih hrest)
      | any rs =>
          cases rs with
          | nil => cases h
          | cons r rs =>
              rw [run, Outcome.found?_orElse, Option.or_eq_some_iff] at h
              rcases h with h | ⟨-, h⟩
              · exact .any List.mem_cons_self (ih h)
              · -- the later alternatives are a rule of the same form, and it was one of them
                cases ih h with
                | any hr h => exact .any (List.mem_cons_of_mem r hr) h
      | many r =>
          rw [run] at h
          cases hfirst : (run g fuel r trees input).found? with
          | none =>
              simp only [hfirst] at h
              obtain ⟨rfl, rfl⟩ := Prod.mk.inj (Option.some.inj h)
              exact .manyNil
          | some found =>
              simp only [hfirst] at h
              obtain ⟨mid, between, hmid, hrest⟩ := found?_andThen_eq_some h
              exact .manyCons (ih hmid) (ih hrest)
      | role r rule =>
          obtain ⟨inner, hinner, rfl⟩ := found?_map_eq_some h
          exact .role (ih hinner)
      | node kind rule =>
          obtain ⟨inner, hinner, rfl⟩ := found?_map_eq_some h
          exact .node (ih hinner)
      | around kind r? rule =>
          obtain ⟨inner, hinner, rfl⟩ := found?_map_eq_some h
          exact .around (ih hinner)
      | next wanted texts =>
          rw [run] at h
          split at h
          next hnext =>
              obtain ⟨rfl, rfl⟩ := Prod.mk.inj (Option.some.inj h)
              exact .next hnext
          next => cases h
      | after kinds =>
          rw [run] at h
          split at h
          next hafter =>
              obtain ⟨rfl, rfl⟩ := Prod.mk.inj (Option.some.inj h)
              exact .after hafter
          next => cases h

end Rule

end AccessorScan
