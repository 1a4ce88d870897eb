import AccessorScan.Proofs.Naming

/-!
# `Proofs.AccessorNames` — names are split exactly and without ambiguity

The convention is a relation between names and properties, and `splitName` is that relation read from the
name. Read from the property it is `accessorName`, as long as the letter behind the prefix is one of ASCII:
elsewhere two capital letters may have one small letter, or a capital letter may have two characters for
one.

## Contents
- `capitalized`, `accessorName`: properties and the names of their methods.
- `toUpper_of_isLower`, `lowercase_of_isUpper`: the letters of ASCII.
- `StartsLower`, `names_accessorName`: from the property to the name.
- `Prefix.Leads`, `Prefix.Leads.exists_property`: from the name to the property.
- `splitName_exact`.
-/

namespace AccessorScan

/-- The name with its first letter in upper case. -/
def capitalized (name : String) : String :=
  match name.toList with
  | [] => ""
  | c :: cs => String.ofList (c.toUpper :: cs)

/-- The name of the method with this prefix for a property. -/
def accessorName (x : Prefix) (p : String) : String := x.text ++ capitalized p

/-! ## Letters of ASCII -/

theorem lt_of_isAlpha {c : Char} (h : c.isAlpha = true) : c.toNat < 128 := by
  obtain hupper | hlower := Bool.or_eq_true_iff.mp h
  · obtain ⟨-, hlast⟩ := of_decide_eq_true hupper
    exact Nat.lt_of_le_of_lt (UInt32.le_iff_toNat_le.mp hlast) (by decide)
  · obtain ⟨-, hlast⟩ := Bool.and_eq_true_iff.mp hlower
    exact Nat.lt_of_le_of_lt (UInt32.le_iff_toNat_le.mp (of_decide_eq_true hlast)) (by decide)

/-- A letter is found again from its upper-case form. -/
theorem toUpper_of_isLower {c : Char} (h : c.isLower = true) :
    c.toUpper.isUpper = true ∧ isUppercase c.toUpper = true ∧ lowercase c.toUpper = [c] := by
  have hall : ∀ n < 128, (Char.ofNat n).isLower = true → (Char.ofNat n).toUpper.isUpper = true ∧
      isUppercase (Char.ofNat n).toUpper = true ∧ lowercase (Char.ofNat n).toUpper = [Char.ofNat n] := by
    decide +kernel
  have hc := hall c.toNat (lt_of_isAlpha (Bool.or_eq_true_iff.mpr (.inr h)))
  rw [Char.ofNat_toNat] at hc
  exact hc h

/-- A capital letter is found again from its lower-case form, which is a single letter. -/
theorem lowercase_of_isUpper {c : Char} (h : c.isUpper = true) :
    isUppercase c = true ∧ lowercase c = [c.toLower] ∧ c.toLower.isLower = true ∧
      c.toLower.toUpper = c := by
  have hall : ∀ n < 128, (Char.ofNat n).isUpper = true → isUppercase (Char.ofNat n) = true ∧
      lowercase (Char.ofNat n) = [(Char.ofNat n).toLower] ∧ (Char.ofNat n).toLower.isLower = true ∧
      (Char.ofNat n).toLower.toUpper = Char.ofNat n := by
    decide +kernel
  have hc := hall c.toNat (lt_of_isAlpha (Bool.or_eq_true_iff.mpr (.inl h)))
  rw [Char.ofNat_toNat] at hc
  exact hc h

/-! ## From the property to the name -/

/-- The property starts with a small letter of ASCII. -/
def StartsLower (p : String) : Prop := p.toList.head?.any Char.isLower = true

theorem StartsLower.exists_letters {p : String} (h : StartsLower p) :
    ∃ c cs, p = String.ofList (c :: cs) ∧ capitalized p = String.ofList (c.toUpper :: cs) ∧
      c.isLower = true := by
  unfold StartsLower at h
  cases hletters : p.toList with
  | nil =>
      rw [hletters] at h
      cases h
  | cons c cs =>
      rw [hletters] at h
      exact ⟨c, cs, by rw [← hletters, String.ofList_toList], by rw [capitalized, hletters], h⟩

/-- **The names of accessors speak of their properties.** -/
theorem names_accessorName (x : Prefix) {p : String} (h : StartsLower p) :
    x.Names (accessorName x p) p := by
  obtain ⟨c, cs, hp, hcap, hc⟩ := h.exists_letters
  obtain ⟨-, hupper, hlower⟩ := toUpper_of_isLower hc
  refine ⟨c.toUpper, cs, hupper, ?_, ?_⟩
  · rw [accessorName, hcap]
  · rw [hlower, hp]
    rfl

/-! ## From the name to the property -/

/-- A capital letter of ASCII stands behind the prefix. -/
def Prefix.Leads (x : Prefix) (name : String) : Prop :=
  ∃ (u : Char) (rest : List Char), u.isUpper = true ∧ name = x.text ++ String.ofList (u :: rest)

/-- **A name is the accessor name of what it speaks of.** -/
theorem Prefix.Leads.exists_property {x : Prefix} {name : String} (h : x.Leads name) :
    ∃ p, x.Names name p ∧ StartsLower p ∧ accessorName x p = name := by
  obtain ⟨u, rest, hu, hname⟩ := h
  obtain ⟨hupper, hlowered, hlower, hback⟩ := lowercase_of_isUpper hu
  have hletters : (String.ofList (lowercase u ++ rest)).toList = u.toLower :: rest := by
    rw [String.toList_ofList, hlowered]
    rfl
  refine ⟨String.ofList (lowercase u ++ rest), ⟨u, rest, hupper, hname, rfl⟩, ?_, ?_⟩
  · rw [StartsLower, hletters]
    exact hlower
  · rw [accessorName, capitalized, hletters]
    show x.text ++ String.ofList (u.toLower.toUpper :: rest) = name
    rw [hback, hname]

/-- **Names are split exactly and without ambiguity.** The split is the convention, and no name speaks of
    two properties or under two prefixes, so that any order of the prefixes would do. Behind a prefix, a
    property that starts with a small letter of ASCII and a name that goes on with a capital one are made
    from each other, so no two such names share a property. -/
theorem splitName_exact :
    (∀ name x p, splitName name = some (x, p) ↔ x.Names name p) ∧
    (∀ name (x y : Prefix) p q, x.Names name p → y.Names name q → x = y ∧ p = q) ∧
    (∀ table : List Prefix, table.Perm Prefix.all → ∀ name, splitNameIn table name = splitName name) ∧
    (∀ x p, StartsLower p → splitName (accessorName x p) = some (x, p)) ∧
    (∀ x name, x.Leads name →
      ∃ p, splitName name = some (x, p) ∧ StartsLower p ∧ accessorName x p = name) ∧
    ∀ x s t p, x.Leads s → x.Leads t → splitName s = some (x, p) → splitName t = some (x, p) →
      s = t := by
  have hback : ∀ x name, x.Leads name →
      ∃ p, splitName name = some (x, p) ∧ StartsLower p ∧ accessorName x p = name := by
    intro x name h
    obtain ⟨p, hnames, hp⟩ := h.exists_property
    exact ⟨p, splitName_eq_some_iff.mpr hnames, hp⟩
  refine ⟨fun _ _ _ => splitName_eq_some_iff, ?_, ?_, fun x p h => ?_, hback, ?_⟩
  · intro name x y p q hx hy
    obtain rfl := hx.unique hy
    exact ⟨rfl, hx.property_eq hy⟩
  · intro table htable name
    refine Option.ext fun ⟨x, p⟩ => ?_
    show splitNameIn table name = _ ↔ splitNameIn Prefix.all name = _
    rw [splitNameIn_eq_some_iff, splitNameIn_eq_some_iff, htable.mem_iff]
  · exact splitName_eq_some_iff.mpr (names_accessorName x h)
  · intro x s t p hs ht hsplit hsplit'
    obtain ⟨q, hq, -, rfl⟩ := hback x s hs
    obtain ⟨q', hq', -, rfl⟩ := hback x t ht
    rw [hsplit] at hq
    rw [hsplit'] at hq'
    cases hq
    cases hq'
    rfl

/-- Letters in upper case may follow the first one. -/
theorem splitName_exact_url :
    splitName "getURL" = some (.get, "uRL") ∧
    (∀ x p, Prefix.Names x "getURL" p → x = .get ∧ p = "uRL") ∧
    splitNameIn [.set, .get, .is] "getURL" = splitName "getURL" ∧
    StartsLower "uRL" ∧ splitName (accessorName .get "uRL") = some (.get, "uRL") ∧
    Prefix.Leads .get "getURL" ∧
    (∃ p, splitName "getURL" = some (.get, p) ∧ StartsLower p ∧ accessorName .get p = "getURL") ∧
    ∀ name, Prefix.Leads .get name → splitName name = some (.get, "uRL") → name = "getURL" := by
  obtain ⟨hiff, hunique, htable, hsplit, hback, hshare⟩ := splitName_exact
  have hstarts : StartsLower "uRL" := rfl
  have hname : accessorName .get "uRL" = "getURL" := rfl
  have hurl : splitName "getURL" = some (.get, "uRL") := by
    rw [← hname]
    exact hsplit .get "uRL" hstarts
  have hleads : Prefix.Leads .get "getURL" := ⟨'U', ['R', 'L'], rfl, rfl⟩
  refine ⟨hurl, fun x p h => ?_, htable _ (by decide) _, hstarts, hsplit .get "uRL" hstarts, hleads,
    hback .get _ hleads, fun name h hname => hshare .get name _ _ h hleads hname hurl⟩
  exact hunique "getURL" x .get p "uRL" h ((hiff _ _ _).mp hurl)

-- A capital letter may have two characters as its small form, the second of which may follow another one.
example : splitName "get\u0130" = some (.get, "i\u0307") ∧
    splitName "getI\u0307" = some (.get, "i\u0307") := by decide +kernel

-- The digraph with one capital letter is no capital letter.
example : splitName "get\u01C4" = some (.get, "\u01C6") ∧ splitName "get\u01C5" = none := by
  decide +kernel

end AccessorScan
