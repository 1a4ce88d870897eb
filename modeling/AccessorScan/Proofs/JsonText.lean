import AccessorScan.Json.Reader
import AccessorScan.Json.Writer
import Mathlib.Data.List.DropRight

/-!
# `Proofs.JsonText` — what is written as JSON text is read back

The reader is run on the text of a value with more text behind it. It gives the value back with that
text left over, as long as it could not be taken for more digits of a number. This is what the
induction over nested arrays and objects needs, and it is the round trip of whole texts in the end.

## Contents
- `Reader.stringBody?_escape`: string literals, one character at a time.
- `Reader.number?_integerText`, `Reader.value?_number`: numbers.
- `Json.HasReadableLiterals`: decimals, which are kept as they were written.
- `Json.ReadsBack`, `Reader.items?_pretty`, `Reader.entries?_pretty`, `Json.readsBack`: nested values.
- `Json.parse?_pretty`: whole texts.
-/

namespace AccessorScan
namespace Json

namespace Reader

/-! ## Blanks -/

theorem skipBlanks_append_of_blank {cs : List Char} (h : ∀ c ∈ cs, isBlank c = true)
    (rest : List Char) : skipBlanks (cs ++ rest) = skipBlanks rest :=
  List.dropWhile_append_of_pos h

theorem skipBlanks_idem (cs : List Char) : skipBlanks (skipBlanks cs) = skipBlanks cs := by
  rw [skipBlanks, skipBlanks, List.dropWhile_idempotent]

theorem skipBlanks_cons {c : Char} (h : isBlank c = false) (cs : List Char) :
    skipBlanks (c :: cs) = c :: cs := by
  rw [skipBlanks, List.dropWhile_cons_of_neg (by simp [h])]

theorem isBlank_of_mem_lineStart {level : Nat} {c : Char} (h : c ∈ lineStart level) :
    isBlank c = true := by
  rcases List.mem_cons.mp h with rfl | h
  · rfl
  · obtain rfl := List.eq_of_mem_replicate h
    rfl

/-- A value is read after blanks as it is without them. -/
theorem value?_skipBlanks (fuel : Nat) (cs : List Char) :
    value? fuel (skipBlanks cs) = value? fuel cs := by
  cases fuel with
  | zero => rfl
  | succ fuel => rw [value?, value?, skipBlanks_idem]

theorem value?_space (fuel : Nat) (cs : List Char) : value? fuel (' ' :: cs) = value? fuel cs := by
  have hspace : skipBlanks (' ' :: cs) = skipBlanks cs :=
    List.dropWhile_cons_of_pos rfl
  rw [← value?_skipBlanks, hspace, value?_skipBlanks]

theorem value?_lineStart (fuel level : Nat) (cs : List Char) :
    value? fuel (lineStart level ++ cs) = value? fuel cs := by
  rw [← value?_skipBlanks, skipBlanks_append_of_blank fun _ => isBlank_of_mem_lineStart,
    value?_skipBlanks]

/-! ## String literals -/

theorem hexValue?_hexDigit : ∀ n < 16, hexValue? (hexDigit n) = some n := by
  decide

theorem stringUnits?_short {e c : Char} (h : shortEscape? e = some c) (rest : List Char) :
    stringUnits? ('\\' :: e :: rest) =
      (stringUnits? rest).map fun (us, r) => (c.toNat :: us, r) := by
  have hcode : e ≠ 'u' := by
    rintro rfl
    cases h
  rw [stringUnits?.eq_def]
  cases hrest : stringUnits? rest <;> simp [hcode, h, hrest]

/-- What is written for one character is read as its code value. -/
theorem stringUnits?_escape (c : Char) (rest : List Char) :
    stringUnits? (escape c ++ rest) =
      (stringUnits? rest).map fun (us, r) => (c.toNat :: us, r) := by
  unfold escape
  split
  next h => subst h; exact stringUnits?_short rfl rest
  next hquote =>
  split
  next h => subst h; exact stringUnits?_short rfl rest
  next hbackslash =>
  split
  next h => subst h; exact stringUnits?_short rfl rest
  split
  next h => subst h; exact stringUnits?_short rfl rest
  split
  next h => subst h; exact stringUnits?_short rfl rest
  split
  next h =>
      have hshort := stringUnits?_short (e := 'b') rfl rest
      rwa [show (Char.ofNat 8).toNat = c.toNat from h.symm] at hshort
  split
  next h =>
      have hshort := stringUnits?_short (e := 'f') rfl rest
      rwa [show (Char.ofNat 12).toNat = c.toNat from h.symm] at hshort
  split
  next hcontrol =>
      -- the two zeros in front leave two digits for a code value below 32
      have hhigh := hexValue?_hexDigit (c.toNat / 16) (by omega)
      have hlow := hexValue?_hexDigit (c.toNat % 16) (by omega)
      have hzero : hexValue? '0' = some 0 := rfl
      have hunit : unit? '0' '0' (hexDigit (c.toNat / 16)) (hexDigit (c.toNat % 16)) =
          some c.toNat := by
        rw [unit?, hzero, hhigh, hlow]
        simp only [Option.bind_eq_bind, Option.bind_some, Option.pure_def, Option.some.injEq]
        omega
      cases h : stringUnits? rest <;> simp [stringUnits?, hunit, h]
  next hcontrol =>
      rw [List.singleton_append, stringUnits?.eq_def]
      cases h : stringUnits? rest <;> simp [hbackslash, hcontrol, h]

theorem stringUnits?_flatMap_escape (cs rest : List Char) :
    stringUnits? (cs.flatMap escape ++ '"' :: rest) = some (cs.map Char.toNat, rest) := by
  induction cs with
  | nil => rw [List.flatMap_nil, List.nil_append, stringUnits?, List.map_nil]
  | cons c cs ih =>
      rw [List.flatMap_cons, List.append_assoc, stringUnits?_escape, ih, List.map_cons]
      rfl

/-- Characters are no surrogates, so their code values are read one by one. -/
theorem fromUnits?_map_toNat (cs : List Char) : fromUnits? (cs.map Char.toNat) = some cs := by
  have hnot : ∀ c : Char, ¬ (0xD800 ≤ c.toNat ∧ c.toNat < 0xE000) := by
    intro c
    have hvalid : c.toNat < 0xD800 ∨ 0xDFFF < c.toNat ∧ c.toNat < 0x110000 := c.valid
    omega
  induction cs with
  | nil => rfl
  | cons c cs ih =>
      have hsurrogate := hnot c
      cases cs with
      | nil => simp only [List.map_cons, List.map_nil, fromUnits?, if_neg hsurrogate, Char.ofNat_toNat]
      | cons d ds =>
          have hpair : ¬ (0xD800 ≤ c.toNat ∧ c.toNat < 0xDC00 ∧ 0xDC00 ≤ d.toNat ∧
              d.toNat < 0xE000) := by
            omega
          rw [List.map_cons] at ih
          rw [List.map_cons, List.map_cons, fromUnits?, if_neg hpair, if_neg hsurrogate, ih,
            Option.map_some, Char.ofNat_toNat]

/-- **String literals.** The characters between the quotes are read back. -/
theorem stringBody?_escape (cs rest : List Char) :
    stringBody? (cs.flatMap escape ++ '"' :: rest) = some (cs, rest) := by
  rw [stringBody?, stringUnits?_flatMap_escape]
  simp only [Option.bind_eq_bind, Option.bind_some, fromUnits?_map_toNat, Option.pure_def]

/-! ## Numbers -/

/-- A number that is followed by this text ends before it. -/
def EndsNumber (rest : List Char) : Prop := ∀ c ∈ rest.head?, isNumberPart c = false

theorem endsNumber_cons {c : Char} {rest : List Char} (h : isNumberPart c = false) :
    EndsNumber (c :: rest) := by
  intro x hx
  obtain rfl := Option.some.inj hx
  exact h

theorem isNumberPart_of_isDigit {c : Char} (h : c.isDigit = true) : isNumberPart c = true := by
  simp [isNumberPart, h]

theorem isDigit_of_mem_repr {n : Nat} {c : Char} (h : c ∈ (Nat.repr n).toList) :
    c.isDigit = true := by
  rw [Nat.toList_repr] at h
  exact Nat.isDigit_of_mem_toDigits (by decide) (by decide) h

theorem digitsValue_repr (n : Nat) : digitsValue (Nat.repr n).toList = n := by
  rw [Nat.toList_repr]
  exact Nat.ofDigitChars_ten_toDigits

/-- A number other than zero does not start with a zero. -/
theorem exists_toDigits_eq_cons {n : Nat} (hn : 0 < n) :
    ∃ c ds, Nat.toDigits 10 n = c :: ds ∧ c ≠ '0' := by
  induction n using Nat.base_induction 10 (by decide) with
  | single m hm =>
      refine ⟨m.digitChar, [], Nat.toDigits_of_lt_base hm, ?_⟩
      have hdigit : ∀ k < 10, 0 < k → k.digitChar ≠ '0' := by decide
      exact hdigit m hm hn
  | digit m k hk hm ih =>
      obtain ⟨c, ds, hds, hc⟩ := ih hm
      refine ⟨c, ds ++ Nat.toDigits 10 k, ?_, hc⟩
      rw [← Nat.toDigits_append_toDigits (by decide) hm hk, hds, List.cons_append]

theorem isInteger_repr (n : Nat) : isInteger (Nat.repr n).toList = true := by
  rcases Nat.eq_zero_or_pos n with rfl | hn
  · rfl
  · have hdigits : ∀ c ∈ Nat.toDigits 10 n, c.isDigit = true := fun c hc =>
      isDigit_of_mem_repr (by rwa [Nat.toList_repr])
    obtain ⟨c, ds, hds, hc⟩ := exists_toDigits_eq_cons hn
    rw [hds, List.forall_mem_cons] at hdigits
    rw [Nat.toList_repr, hds, isInteger.eq_def]
    simp [hc, hdigits.1, List.all_eq_true.mpr hdigits.2]

/-- Digits are read as their value. -/
theorem number?_digits {ds : List Char} (hinteger : isInteger ds = true)
    (hds : ∀ c ∈ ds, c.isDigit = true) : number? ds = some (.integer (digitsValue ds)) := by
  have hsign : (ds.head? == some '-') = false := by
    rw [← Bool.not_eq_true, beq_iff_eq]
    intro hhead
    cases hds _ (List.mem_of_head? hhead)
  have htake : ds.takeWhile Char.isDigit = ds := List.takeWhile_eq_self_iff.mpr hds
  have hdrop : ds.dropWhile Char.isDigit = [] := List.dropWhile_eq_nil_iff.mpr hds
  simp [number?, hsign, htake, hdrop, hinteger]

/-- So are digits behind a sign. Only zero is no integer then. -/
theorem number?_minus {ds : List Char} (hinteger : isInteger ds = true)
    (hds : ∀ c ∈ ds, c.isDigit = true) (hzero : digitsValue ds ≠ 0) :
    number? ('-' :: ds) = some (.integer (-(digitsValue ds : Int))) := by
  have htake : ds.takeWhile Char.isDigit = ds := List.takeWhile_eq_self_iff.mpr hds
  have hdrop : ds.dropWhile Char.isDigit = [] := List.dropWhile_eq_nil_iff.mpr hds
  simp [number?, htake, hdrop, hinteger, hzero]

/-- **Numbers.** The text of an integer is read as that integer. -/
theorem number?_integerText (i : Int) : number? (integerText i) = some (.integer i) := by
  cases i with
  | ofNat n =>
      rw [integerText, number?_digits (isInteger_repr n) fun _ => isDigit_of_mem_repr,
        digitsValue_repr]
      rfl
  | negSucc n =>
      have hzero : digitsValue (Nat.repr (n + 1)).toList ≠ 0 := by
        rw [digitsValue_repr]
        exact Nat.succ_ne_zero n
      rw [integerText,
        number?_minus (isInteger_repr (n + 1)) (fun _ => isDigit_of_mem_repr) hzero,
        digitsValue_repr]
      rfl

theorem isNumberPart_of_mem_integerText {i : Int} {c : Char} (h : c ∈ integerText i) :
    isNumberPart c = true := by
  cases i with
  | ofNat n => exact isNumberPart_of_isDigit (isDigit_of_mem_repr h)
  | negSucc n =>
      rcases List.mem_cons.mp h with rfl | h
      · rfl
      · exact isNumberPart_of_isDigit (isDigit_of_mem_repr h)

/-- A number is read up to where its text ends. -/
theorem value?_number {cs rest : List Char} {v : Json} (fuel : Nat)
    (hcs : ∀ c ∈ cs, isNumberPart c = true) (hv : number? cs = some v) (hrest : EndsNumber rest) :
    value? (fuel + 1) (cs ++ rest) = some (v, rest) := by
  have htake : (cs ++ rest).takeWhile isNumberPart = cs ∧
      (cs ++ rest).dropWhile isNumberPart = rest := by
    cases rest with
    | nil =>
        rw [List.append_nil, List.takeWhile_eq_self_iff.mpr hcs, List.dropWhile_eq_nil_iff.mpr hcs]
        exact ⟨rfl, rfl⟩
    | cons r rest =>
        have hr : isNumberPart r = false := hrest r rfl
        rw [List.takeWhile_append_of_pos hcs, List.dropWhile_append_of_pos hcs,
          List.takeWhile_cons_of_neg (by simp [hr]), List.dropWhile_cons_of_neg (by simp [hr]),
          List.append_nil]
        exact ⟨rfl, rfl⟩
  cases cs with
  | nil => cases hv
  | cons c cs =>
      have hc := hcs c List.mem_cons_self
      have hblank : isBlank c = false := by
        rw [← Bool.not_eq_true]
        intro hblank
        simp only [isBlank, Bool.or_eq_true, beq_iff_eq] at hblank
        rcases hblank with ((rfl | rfl) | rfl) | rfl <;> cases hc
      rw [List.cons_append] at htake ⊢
      -- what stands in a number starts no other value
      have hother : ∀ d, isNumberPart d = false → c ≠ d := by
        rintro d hd rfl
        rw [hc] at hd
        cases hd
      rw [value?, skipBlanks_cons hblank]
      split
      next h => exact absurd (List.cons.inj h).1 (hother _ rfl)
      next h => exact absurd (List.cons.inj h).1 (hother _ rfl)
      next h => exact absurd (List.cons.inj h).1 (hother _ rfl)
      next h => exact absurd (List.cons.inj h).1 (hother _ rfl)
      next h => exact absurd (List.cons.inj h).1 (hother _ rfl)
      next h => exact absurd (List.cons.inj h).1 (hother _ rfl)
      next => rw [htake.1, htake.2, hv, Option.map_some]

end Reader

/-! ## Nested values -/

mutual

/-- The literal of a decimal is one that is read as that decimal. -/
def HasReadableLiterals : Json → Prop
  | .decimal l =>
      (∀ c ∈ l.toList, Reader.isNumberPart c = true) ∧ Reader.number? l.toList = some (.decimal l)
  | .array items => ItemsHaveReadableLiterals items
  | .object entries => EntriesHaveReadableLiterals entries
  | .null | .bool _ | .integer _ | .string _ => True

def ItemsHaveReadableLiterals : List Json → Prop
  | [] => True
  | v :: rest => v.HasReadableLiterals ∧ ItemsHaveReadableLiterals rest

def EntriesHaveReadableLiterals : List (String × Json) → Prop
  | [] => True
  | (_, v) :: rest => v.HasReadableLiterals ∧ EntriesHaveReadableLiterals rest

end

theorem itemsHaveReadableLiterals_map {α : Type} {write : α → Json} {xs : List α}
    (h : ∀ x ∈ xs, (write x).HasReadableLiterals) : ItemsHaveReadableLiterals (xs.map write) := by
  induction xs with
  | nil => trivial
  | cons x xs ih =>
      exact ⟨h x List.mem_cons_self, ih fun y hy => h y (List.mem_cons_of_mem x hy)⟩

/-- The text of the value is read back wherever it stands, with more fuel than it has characters. -/
structure ReadsBack (v : Json) : Prop where
  value? (level fuel : Nat) {rest : List Char} (hfuel : (prettyChars level v).length ≤ fuel)
    (hrest : Reader.EndsNumber rest) :
    Reader.value? (fuel + 1) (prettyChars level v ++ rest) = some (v, rest)

namespace Reader

theorem endsNumber_prettyItems (level : Nat) (vs : List Json) (rest : List Char) :
    EndsNumber (prettyItems level vs ++ rest) := by
  cases vs <;> exact endsNumber_cons rfl

theorem endsNumber_prettyEntries (level : Nat) (es : List (String × Json)) (rest : List Char) :
    EndsNumber (prettyEntries level es ++ rest) := by
  cases es <;> exact endsNumber_cons rfl

/-- The items of an array are read back if each of them is. -/
theorem items?_pretty {level : Nat} {rest : List Char} :
    ∀ (vs : List Json) (v : Json) (fuel : Nat), v.ReadsBack → (∀ w ∈ vs, w.ReadsBack) →
      (prettyChars (level + 1) v).length + (prettyItems level vs).length ≤ fuel →
      items? (fuel + 2) (lineStart (level + 1) ++ (prettyChars (level + 1) v ++
        (prettyItems level vs ++ rest))) = some (v :: vs, rest) := by
  intro vs
  induction vs with
  | nil =>
      intro v fuel hv _ hfuel
      have hvalue := hv.value? (level + 1) fuel (by omega)
        (endsNumber_prettyItems level [] rest)
      have hclose : skipBlanks (prettyItems level [] ++ rest) = ']' :: rest := by
        rw [prettyItems, List.append_assoc,
          skipBlanks_append_of_blank fun _ => isBlank_of_mem_lineStart]
        exact skipBlanks_cons rfl rest
      rw [items?, value?_lineStart, hvalue]
      simp only [Option.bind_eq_bind, Option.bind_some, hclose]
      rfl
  | cons w vs ih =>
      intro v fuel hv hvs hfuel
      have hpretty : prettyItems level (w :: vs) =
          ',' :: (lineStart (level + 1) ++ (prettyChars (level + 1) w ++ prettyItems level vs)) := by
        simp only [prettyItems, List.cons_append, List.append_assoc]
      have hvalue := hv.value? (level + 1) fuel (by omega)
        (endsNumber_prettyItems level (w :: vs) rest)
      rw [hpretty, List.length_cons, List.length_append, List.length_append] at hfuel
      -- the comma alone pays for the next round
      obtain ⟨fuel, rfl⟩ : ∃ n, fuel = n + 1 := ⟨fuel - 1, by omega⟩
      have hrest := ih w fuel (hvs w List.mem_cons_self)
        (fun x hx => hvs x (List.mem_cons_of_mem w hx)) (by omega)
      have hcomma : skipBlanks (prettyItems level (w :: vs) ++ rest) =
          ',' :: (lineStart (level + 1) ++ (prettyChars (level + 1) w ++
            (prettyItems level vs ++ rest))) := by
        rw [hpretty]
        simp only [List.cons_append, List.append_assoc]
        exact skipBlanks_cons rfl _
      rw [items?, value?_lineStart, hvalue]
      simp only [Option.bind_eq_bind, Option.bind_some, hcomma, hrest]
      rfl

/-- A key is found with its colon, whatever follows. -/
theorem skipBlanks_key (level : Nat) (k : String) (rest : List Char) :
    skipBlanks (lineStart level ++ (quoted k ++ rest)) =
      '"' :: (k.toList.flatMap escape ++ '"' :: rest) := by
  rw [skipBlanks_append_of_blank fun _ => isBlank_of_mem_lineStart, quoted, List.cons_append,
    List.append_assoc]
  exact skipBlanks_cons rfl _

/-- The entries of an object are read back if the value of each of them is. -/
theorem entries?_pretty {level : Nat} {rest : List Char} :
    ∀ (es : List (String × Json)) (k : String) (v : Json) (fuel : Nat), v.ReadsBack →
      (∀ e ∈ es, e.2.ReadsBack) →
      (prettyChars (level + 1) v).length + (prettyEntries level es).length ≤ fuel →
      entries? (fuel + 2) (lineStart (level + 1) ++ (quoted k ++ ':' :: ' ' ::
        (prettyChars (level + 1) v ++ (prettyEntries level es ++ rest)))) =
          some ((k, v) :: es, rest) := by
  intro es
  induction es with
  | nil =>
      intro k v fuel hv _ hfuel
      have hvalue := hv.value? (level + 1) fuel (by omega)
        (endsNumber_prettyEntries level [] rest)
      have hclose : skipBlanks (prettyEntries level [] ++ rest) = '\x7d' :: rest := by
        rw [prettyEntries, List.append_assoc,
          skipBlanks_append_of_blank fun _ => isBlank_of_mem_lineStart]
        exact skipBlanks_cons rfl rest
      rw [entries?, skipBlanks_key]
      simp only [stringBody?_escape, Option.bind_eq_bind, Option.bind_some,
        skipBlanks_cons (c := ':') rfl, value?_space, hvalue, hclose]
      rw [Option.pure_def, String.ofList_toList]
  | cons e es ih =>
      intro k v fuel hv hes hfuel
      obtain ⟨l, w⟩ := e
      have hpretty : prettyEntries level ((l, w) :: es) =
          ',' :: (lineStart (level + 1) ++ (quoted l ++ ':' :: ' ' ::
            (prettyChars (level + 1) w ++ prettyEntries level es))) := by
        simp only [prettyEntries, List.cons_append, List.append_assoc]
      have hvalue := hv.value? (level + 1) fuel (by omega)
        (endsNumber_prettyEntries level ((l, w) :: es) rest)
      rw [hpretty] at hfuel
      simp only [List.length_cons, List.length_append] at hfuel
      -- the comma alone pays for the next round
      obtain ⟨fuel, rfl⟩ : ∃ n, fuel = n + 1 := ⟨fuel - 1, by omega⟩
      have hrest := ih l w fuel (hes (l, w) List.mem_cons_self)
        (fun x hx => hes x (List.mem_cons_of_mem _ hx)) (by omega)
      have hcomma : skipBlanks (prettyEntries level ((l, w) :: es) ++ rest) =
          ',' :: (lineStart (level + 1) ++ (quoted l ++ ':' :: ' ' ::
            (prettyChars (level + 1) w ++ (prettyEntries level es ++ rest)))) := by
        rw [hpretty]
        simp only [List.cons_append, List.append_assoc]
        exact skipBlanks_cons rfl _
      rw [entries?, skipBlanks_key]
      simp only [stringBody?_escape, Option.bind_eq_bind, Option.bind_some,
        skipBlanks_cons (c := ':') rfl, value?_space, hvalue, hcomma, hrest]
      rw [Option.pure_def, String.ofList_toList]

/-- The bracket that ends an array starts no value. -/
theorem value?_close (fuel : Nat) (rest : List Char) : value? (fuel + 1) (']' :: rest) = none := rfl

end Reader

theorem ReadsBack.integer (i : Int) : (Json.integer i).ReadsBack := by
  constructor
  intro level fuel rest _ hrest
  exact Reader.value?_number fuel (fun _ => Reader.isNumberPart_of_mem_integerText)
    (Reader.number?_integerText i) hrest

theorem ReadsBack.string (s : String) : (Json.string s).ReadsBack := by
  constructor
  intro level fuel rest _ _
  rw [prettyChars, quoted, List.cons_append, List.append_assoc, List.singleton_append,
    Reader.value?, Reader.skipBlanks_cons rfl]
  simp only [Reader.stringBody?_escape, Option.map_some, String.ofList_toList]

/-- An array is read back if its items are. -/
theorem ReadsBack.array {v : Json} {vs : List Json} (hv : v.ReadsBack)
    (hvs : ∀ w ∈ vs, w.ReadsBack) : (Json.array (v :: vs)).ReadsBack := by
  constructor
  intro level fuel rest hfuel _
  have hpretty : prettyChars level (.array (v :: vs)) ++ rest =
      '[' :: (lineStart (level + 1) ++ (prettyChars (level + 1) v ++
        (prettyItems level vs ++ rest))) := by
    simp only [prettyChars, List.cons_append, List.append_assoc]
  simp only [prettyChars, lineStart, List.length_append, List.length_cons,
    List.length_replicate] at hfuel
  obtain ⟨fuel, rfl⟩ : ∃ n, fuel = n + 2 := ⟨fuel - 2, by omega⟩
  rw [hpretty, Reader.value?, Reader.skipBlanks_cons rfl]
  simp only
  split
  next r hclose =>
      -- the first item would have to start with the closing bracket
      have hvalue := hv.value? (level + 1) fuel (by omega)
        (Reader.endsNumber_prettyItems level vs rest)
      rw [← Reader.value?_lineStart _ (level + 1), ← Reader.value?_skipBlanks, hclose,
        Reader.value?_close] at hvalue
      cases hvalue
  next =>
      rw [Reader.items?_pretty vs v fuel hv hvs (by omega)]
      rfl

/-- An object is read back if the values of its entries are. -/
theorem ReadsBack.object {k : String} {v : Json} {es : List (String × Json)} (hv : v.ReadsBack)
    (hes : ∀ e ∈ es, e.2.ReadsBack) : (Json.object ((k, v) :: es)).ReadsBack := by
  constructor
  intro level fuel rest hfuel _
  have hpretty : prettyChars level (.object ((k, v) :: es)) ++ rest =
      '\x7b' :: (lineStart (level + 1) ++ (quoted k ++ ':' :: ' ' :: (prettyChars (level + 1) v ++
        (prettyEntries level es ++ rest)))) := by
    simp only [prettyChars, List.cons_append, List.append_assoc]
  simp only [prettyChars, lineStart, List.length_append, List.length_cons,
    List.length_replicate] at hfuel
  obtain ⟨fuel, rfl⟩ : ∃ n, fuel = n + 2 := ⟨fuel - 2, by omega⟩
  rw [hpretty, Reader.value?, Reader.skipBlanks_cons rfl]
  simp only [Reader.skipBlanks_key]
  rw [Reader.entries?_pretty es k v fuel hv hes (by omega)]
  rfl

mutual

/-- **Values.** Every value is read back from its text. -/
theorem readsBack : ∀ {v : Json}, v.HasReadableLiterals → v.ReadsBack
  | .null, _ => ⟨fun _ _ _ _ _ => rfl⟩
  | .bool true, _ => ⟨fun _ _ _ _ _ => rfl⟩
  | .bool false, _ => ⟨fun _ _ _ _ _ => rfl⟩
  | .integer i, _ => .integer i
  | .decimal _, h => ⟨fun _ fuel _ _ hrest => Reader.value?_number fuel h.1 h.2 hrest⟩
  | .string s, _ => .string s
  | .array [], _ => ⟨fun _ _ _ _ _ => rfl⟩
  | .array (_ :: _), h => .array (readsBack h.1) (itemsReadBack h.2)
  | .object [], _ => ⟨fun _ _ _ _ _ => rfl⟩
  | .object ((_, _) :: _), h => .object (readsBack h.1) (entriesReadBack h.2)

theorem itemsReadBack :
    ∀ {vs : List Json}, ItemsHaveReadableLiterals vs → ∀ w ∈ vs, w.ReadsBack
  | [], _, w, hw => by cases hw
  | v :: vs, h, w, hw => by
      rcases List.mem_cons.mp hw with heq | hw
      · rw [heq]
        exact readsBack h.1
      · exact itemsReadBack h.2 w hw

theorem entriesReadBack :
    ∀ {es : List (String × Json)}, EntriesHaveReadableLiterals es → ∀ e ∈ es, e.2.ReadsBack
  | [], _, e, he => by cases he
  | (k, v) :: es, h, e, he => by
      rcases List.mem_cons.mp he with heq | he
      · rw [heq]
        exact readsBack h.1
      · exact entriesReadBack h.2 e he

end

/-! ## Whole texts -/

/-- **Texts.** The text of a value is read back, also with blanks behind it. -/
theorem parse?_pretty {v : Json} (hv : v.HasReadableLiterals) {blanks : String}
    (hblanks : ∀ c ∈ blanks.toList, Reader.isBlank c = true) :
    parse? (v.pretty ++ blanks) = some v := by
  have hends : Reader.EndsNumber blanks.toList := by
    intro c hc
    have hblank := hblanks c (List.mem_of_head? hc)
    simp only [Reader.isBlank, Bool.or_eq_true, beq_iff_eq] at hblank
    rcases hblank with ((rfl | rfl) | rfl) | rfl <;> rfl
  have hskip : Reader.skipBlanks blanks.toList = [] := List.dropWhile_eq_nil_iff.mpr hblanks
  have htext : (v.pretty ++ blanks).toList = prettyChars 0 v ++ blanks.toList := by
    rw [String.toList_append, pretty, String.toList_ofList]
  have hlength : (prettyChars 0 v).length ≤ (v.pretty ++ blanks).length := by
    rw [← String.length_toList, htext, List.length_append]
    exact Nat.le_add_right _ _
  rw [parse?, htext, (readsBack hv).value? 0 _ hlength hends]
  simp only [hskip, List.isEmpty_nil, if_true]

end Json
end AccessorScan
