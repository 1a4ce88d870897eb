import AccessorScan.Proofs.Reading

/-!
# `Proofs.Finding` — what a rule finds with enough fuel

A run that is short of fuel finds nothing, and so does one whose rule does not fit. So that a rule finds
something, or nothing, is stated for every amount of fuel from some amount on. It is put together rule by rule
like a reading, and it also tells which alternatives fail.

## Contents
- `Rule.Finds`.
- `Finds.phrase`, `Finds.all_append`, `Finds.any_append`, `Finds.many_cons`, …: one lemma or two for each rule.
-/

namespace AccessorScan

namespace Rule

variable {P : Type}

theorem found?_run_many (g : P → Rule P) (fuel : Nat) (r : Rule P) (trees : List Tree)
    (input : List Lexeme) :
    (run g (fuel + 1) (.many r) trees input).found? =
      (run g fuel r trees input).found?.elim (some (trees, input))
        fun found => (run g fuel (.many r) found.1 found.2).found? := by
  rw [run]
  cases hfirst : (run g fuel r trees input).found? with
  | none => rfl
  | some found => simp only [Outcome.found?_andThen, hfirst, Option.bind_some, Option.elim_some]

/-- With this much fuel or more the rule finds this. -/
def Finds (g : P → Rule P) (n : Nat) (rule : Rule P) (trees : List Tree) (input : List Lexeme)
    (result : Option (List Tree × List Lexeme)) : Prop :=
  ∀ fuel, n ≤ fuel → (run g fuel rule trees input).found? = result

namespace Finds

variable {g : P → Rule P} {n m : Nat} {r : Rule P} {rs qs : List (Rule P)} {trees ts : List Tree}
  {input rest : List Lexeme} {result : Option (List Tree × List Lexeme)}

/-- A step down takes one unit of fuel. -/
theorem step {rule : Rule P}
    (h : ∀ fuel, n ≤ fuel → (run g (fuel + 1) rule trees input).found? = result) :
    Finds g (n + 1) rule trees input result := by
  intro fuel hfuel
  obtain ⟨fuel, rfl⟩ : ∃ less, fuel = less + 1 := Nat.exists_eq_add_one.mpr (Nat.zero_lt_of_lt hfuel)
  exact h fuel (Nat.le_of_succ_le_succ hfuel)

theorem mono (h : Finds g n r trees input result) (hle : n ≤ m) : Finds g m r trees input result :=
  fun fuel hfuel => h fuel (Nat.le_trans hle hfuel)

theorem phrase {p : P} (h : Finds g n (g p) [] input (some (ts, rest))) :
    Finds g (n + 1) (.phrase p) trees input (some (trees ++ ts, rest)) :=
  step fun fuel hfuel => by
    show ((run g fuel (g p) [] input).map (trees ++ ·)).found? = _
    rw [Outcome.found?_map, h fuel hfuel, Option.map_some]

theorem phrase_none {p : P} (h : Finds g n (g p) [] input none) :
    Finds g (n + 1) (.phrase p) trees input none :=
  step fun fuel hfuel => by
    show ((run g fuel (g p) [] input).map (trees ++ ·)).found? = _
    rw [Outcome.found?_map, h fuel hfuel, Option.map_none]

theorem all_nil : Finds g 1 (.all []) trees input (some (trees, input)) :=
  step fun _ _ => Outcome.found?_found trees input

theorem all_cons (hfirst : Finds g n r trees input (some (ts, rest)))
    (hrest : Finds g m (.all rs) ts rest result) :
    Finds g (max n m + 1) (.all (r :: rs)) trees input result :=
  step fun fuel hfuel => by
    show ((run g fuel r trees input).andThen (run g fuel (.all rs))).found? = _
    rw [Outcome.found?_andThen, hfirst fuel (Nat.max_le.mp hfuel).1]
    exact hrest fuel (Nat.max_le.mp hfuel).2

/-- What is left to do after the first of several rules. -/
theorem run_all_append {fuel : Nat} (h : (run g fuel (.all rs) trees input).found? = some (ts, rest)) :
    (run g fuel (.all (rs ++ qs)) trees input).found? =
      (run g (fuel - rs.length) (.all qs) ts rest).found? := by
  induction rs generalizing fuel trees input with
  | nil =>
      cases fuel with
      | zero => cases h
      | succ fuel =>
          obtain ⟨rfl, rfl⟩ := Prod.mk.inj (Option.some.inj h)
          rfl
  | cons r rs ih =>
      cases fuel with
      | zero => cases h
      | succ fuel =>
          obtain ⟨mid, between, hfirst, hrest⟩ := found?_andThen_eq_some h
          show ((run g fuel r trees input).andThen (run g fuel (.all (rs ++ qs)))).found? = _
          rw [Outcome.found?_andThen, hfirst, List.length_cons, Nat.add_sub_add_right]
          exact ih hrest

theorem all_append (hfirst : Finds g n (.all rs) trees input (some (ts, rest)))
    (hrest : Finds g m (.all qs) ts rest result) :
    Finds g (n + rs.length + m) (.all (rs ++ qs)) trees input result := by
  intro fuel hfuel
  rw [run_all_append (hfirst fuel (by omega))]
  exact hrest _ (by omega)

theorem any_cons (h : Finds g n r trees input (some (ts, rest))) :
    Finds g (n + 1) (.any (r :: rs)) trees input (some (ts, rest)) :=
  step fun fuel hfuel => by
    show ((run g fuel r trees input).orElse fun _ => run g fuel (.any rs) trees input).found? = _
    rw [Outcome.found?_orElse, h fuel hfuel, Option.some_or]

theorem run_any_append {fuel : Nat} (h : (run g fuel (.any rs) trees input).found? = none) :
    (run g fuel (.any (rs ++ qs)) trees input).found? =
      (run g (fuel - rs.length) (.any qs) trees input).found? := by
  induction rs generalizing fuel with
  | nil => rfl
  | cons r rs ih =>
      cases fuel with
      | zero => rw [Nat.zero_sub]; rfl
      | succ fuel =>
          obtain ⟨hfirst, hrest⟩ := Option.or_eq_none_iff.mp ((Outcome.found?_orElse _ _).symm.trans h)
          show ((run g fuel r trees input).orElse fun _ => run g fuel (.any (rs ++ qs)) trees input).found? = _
          rw [Outcome.found?_orElse, hfirst, Option.none_or, ih hrest, List.length_cons,
            Nat.add_sub_add_right]

theorem any_append (hfirst : Finds g n (.any rs) trees input none)
    (hrest : Finds g m (.any qs) trees input result) :
    Finds g (n + rs.length + m) (.any (rs ++ qs)) trees input result := by
  intro fuel hfuel
  rw [run_any_append (hfirst fuel (by omega))]
  exact hrest _ (by omega)

theorem many_nil (h : Finds g n r trees input none) :
    Finds g (n + 1) (.many r) trees input (some (trees, input)) :=
  step fun fuel hfuel => by rw [found?_run_many, h fuel hfuel, Option.elim_none]

theorem many_cons (hfirst : Finds g n r trees input (some (ts, rest)))
    (hrest : Finds g m (.many r) ts rest result) : Finds g (max n m + 1) (.many r) trees input result :=
  step fun fuel hfuel => by
    rw [found?_run_many, hfirst fuel (Nat.max_le.mp hfuel).1, Option.elim_some]
    exact hrest fuel (Nat.max_le.mp hfuel).2

theorem role {x : Role} (h : Finds g n r [] input (some (ts, rest))) :
    Finds g (n + 1) (.role x r) trees input (some (trees ++ labelled x ts, rest)) :=
  step fun fuel hfuel => by
    show ((run g fuel r [] input).map fun ts => trees ++ labelled x ts).found? = _
    rw [Outcome.found?_map, h fuel hfuel, Option.map_some]

theorem node {kind : String} (h : Finds g n r [] input (some (ts, rest))) :
    Finds g (n + 1) (.node kind r) trees input (some (trees ++ Tree.wrap kind ts, rest)) :=
  step fun fuel hfuel => by
    show ((run g fuel r [] input).map fun ts => trees ++ Tree.wrap kind ts).found? = _
    rw [Outcome.found?_map, h fuel hfuel, Option.map_some]

theorem around {kind : String} {x? : Option Role} (h : Finds g n r (taken x? trees) input (some (ts, rest))) :
    Finds g (n + 1) (.around kind x? r) trees input (some (Tree.wrap kind ts, rest)) :=
  step fun fuel hfuel => by
    show ((run g fuel r (taken x? trees) input).map (Tree.wrap kind)).found? = _
    rw [Outcome.found?_map, h fuel hfuel, Option.map_some]

end Finds

end Rule

end AccessorScan
