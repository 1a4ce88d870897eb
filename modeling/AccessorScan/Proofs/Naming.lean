import AccessorScan.Accessor.Naming

/-!
# `Proofs.Naming` — which property a method name speaks of

`splitName` tries the prefixes in turn. What it answers is said here without trying: a name speaks of
a property under a prefix when an uppercase character follows the prefix, and the property is the rest
with the full lower-case mapping of that character in front. No name does so under two prefixes, so the
order in which they are tried is immaterial.

## Contents
- `Prefix.Names`: the convention, as a relation.
- `afterStart?_eq_some_iff`, `decapitalize_eq_some_iff`: what the two steps of the split answer.
- `splitUnder`, `splitNameIn`: the split under one prefix, and under those of a table in turn.
- `Prefix.Names.unique`, `splitNameIn_eq_some_iff`, `splitName_eq_some_iff`.
-/

namespace AccessorScan

/-- Under the prefix `x`, the method `name` speaks of `property`. -/
def Prefix.Names (x : Prefix) (name property : String) : Prop :=
  ∃ (u : Char) (rest : List Char), isUppercase u = true ∧
    name = x.text ++ String.ofList (u :: rest) ∧ property = String.ofList (lowercase u ++ rest)

/-! ## The two steps of a split -/

theorem afterStart?_eq_some_iff {start cs rest : List Char} :
    afterStart? start cs = some rest ↔ cs = start ++ rest := by
  induction start generalizing cs with
  | nil => simp [afterStart?]
  | cons s start ih =>
      cases cs with
      | nil => simp [afterStart?]
      | cons c cs =>
          simp only [afterStart?, List.cons_append, List.cons.injEq]
          by_cases h : s = c
          · subst h
            simp [ih]
          · simp [h, Ne.symm h]

theorem decapitalize_eq_some_iff {cs property : List Char} :
    decapitalize cs = some property ↔
      ∃ u rest, isUppercase u = true ∧ cs = u :: rest ∧ property = lowercase u ++ rest := by
  cases cs with
  | nil => simp [decapitalize]
  | cons c cs =>
      simp only [decapitalize, List.cons.injEq]
      constructor
      · intro h
        split at h
        next hc => exact ⟨c, cs, hc, ⟨rfl, rfl⟩, (Option.some.inj h).symm⟩
        next => cases h
      · rintro ⟨u, rest, hu, ⟨rfl, rfl⟩, rfl⟩
        rw [if_pos hu]

/-- What `splitName` makes of one prefix. -/
def splitUnder (x : Prefix) (name : String) : Option (Prefix × String) := do
  let rest ← afterStart? x.text.toList name.toList
  let property ← decapitalize rest
  return (x, String.ofList property)

theorem splitUnder_eq_some_iff {x : Prefix} {name : String} {result : Prefix × String} :
    splitUnder x name = some result ↔ result.1 = x ∧ x.Names name result.2 := by
  unfold splitUnder
  simp only [Option.bind_eq_bind, Option.bind_eq_some_iff, afterStart?_eq_some_iff,
    decapitalize_eq_some_iff]
  constructor
  · rintro ⟨_, hname, _, ⟨u, rest, hu, rfl, rfl⟩, hresult⟩
    obtain rfl := Option.some.inj hresult
    refine ⟨rfl, u, rest, hu, ?_, rfl⟩
    rw [← String.ofList_toList (s := name), hname, String.ofList_append, String.ofList_toList]
  · rintro ⟨hx, u, rest, hu, hname, hproperty⟩
    obtain ⟨y, property⟩ := result
    obtain rfl : y = x := hx
    obtain rfl : property = String.ofList (lowercase u ++ rest) := hproperty
    exact ⟨u :: rest, by rw [hname, String.toList_append, String.toList_ofList],
      lowercase u ++ rest, ⟨u, rest, hu, rfl, rfl⟩, rfl⟩

theorem Prefix.Names.splitUnder_eq {x : Prefix} {name property : String} (h : x.Names name property) :
    splitUnder x name = some (x, property) :=
  splitUnder_eq_some_iff.mpr ⟨rfl, h⟩

/-! ## One prefix for every name -/

/-- The prefixes differ in their first characters, so a name starts with at most one of them. -/
theorem Prefix.Names.unique {x y : Prefix} {name p q : String} (hx : x.Names name p)
    (hy : y.Names name q) : x = y := by
  obtain ⟨u, rest, -, hname, -⟩ := hx
  obtain ⟨v, tail, -, hname', -⟩ := hy
  have hhead : (x.text ++ String.ofList (u :: rest)).toList.head? =
      (y.text ++ String.ofList (v :: tail)).toList.head? := by
    rw [← hname, ← hname']
  rw [String.toList_append, String.toList_append] at hhead
  cases x <;> cases y <;> first | rfl | exact absurd hhead (by simp [Prefix.text])

/-- Under one prefix a name speaks of one property. -/
theorem Prefix.Names.property_eq {x : Prefix} {name p q : String} (hp : x.Names name p)
    (hq : x.Names name q) : p = q := by
  have hsplit := hp.splitUnder_eq
  rw [hq.splitUnder_eq] at hsplit
  exact (Prod.mk.inj (Option.some.inj hsplit)).2.symm

/-- The split under the first prefix of a table that fits. -/
def splitNameIn (table : List Prefix) (name : String) : Option (Prefix × String) :=
  table.findSome? fun x => splitUnder x name

/-- Where a prefix stands in a table does not count. -/
theorem splitNameIn_eq_some_iff {table : List Prefix} {name property : String} {x : Prefix} :
    splitNameIn table name = some (x, property) ↔ x ∈ table ∧ x.Names name property := by
  unfold splitNameIn
  induction table with
  | nil => simp
  | cons y table ih =>
      rw [List.findSome?_cons, List.mem_cons]
      cases hsplit : splitUnder y name with
      | some result =>
          obtain ⟨hy, hnames⟩ := splitUnder_eq_some_iff.mp hsplit
          constructor
          · intro h
            obtain rfl : result = (x, property) := Option.some.inj h
            obtain rfl : x = y := hy
            exact ⟨.inl rfl, hnames⟩
          · rintro ⟨-, hx⟩
            obtain rfl : x = y := hx.unique hnames
            exact hsplit.symm.trans hx.splitUnder_eq
      | none =>
          have hne : x.Names name property → x ≠ y := by
            rintro hx rfl
            rw [hx.splitUnder_eq] at hsplit
            cases hsplit
          simp only [ih]
          exact ⟨fun ⟨hmem, hx⟩ => ⟨.inr hmem, hx⟩,
            fun ⟨hmem, hx⟩ => ⟨hmem.resolve_left (hne hx), hx⟩⟩

/-- **`splitName` is the convention.** It answers a prefix and a property exactly where the name speaks
    of that property under that prefix. -/
theorem splitName_eq_some_iff {name property : String} {x : Prefix} :
    splitName name = some (x, property) ↔ x.Names name property := by
  have hall : x ∈ Prefix.all := by cases x <;> simp [Prefix.all]
  show splitNameIn Prefix.all name = some (x, property) ↔ _
  rw [splitNameIn_eq_some_iff]
  exact and_iff_right hall

end AccessorScan
