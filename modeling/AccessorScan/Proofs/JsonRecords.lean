import AccessorScan.Json.Basic

/-!
# `Proofs.JsonRecords` — reading what was written, one entry at a time

## Contents
- `Json.array?_map`, `Json.count?_count`, `Json.option?_option`: lists, counts and values that may be
  absent.
- `Json.get?_filter_ne`: the entries of a tagged record without its tag.
- `Json.array?_eq_some_nil_iff`: only an empty array is read as an empty list.
- `Json.Layout.optional_keyed_eq_none_iff`, `Json.Layout.optional_keyed_eq_nil_iff`: what an entry that
  may be left out says where it is read as absence, and where it is read as an empty list.
-/

namespace AccessorScan.Json

variable {α : Type}

/-- A list is read back if each of its items is. -/
theorem array?_map {write : α → Json} {read : Json → Option α} {xs : List α}
    (h : ∀ x ∈ xs, read (write x) = some x) : (Json.array (xs.map write)).array? read = some xs := by
  rw [array?]
  induction xs with
  | nil => rfl
  | cons x xs ih =>
      rw [List.map_cons, List.mapM_cons, h x List.mem_cons_self,
        ih fun y hy => h y (List.mem_cons_of_mem x hy)]
      rfl

theorem count?_count {n : Nat} (h : n < countLimit) : (Json.count n).count? = some n := by
  show AccessorScan.count? n = some n
  rw [AccessorScan.count?, if_pos h]

/-- A value that may be absent is read back if no value is written as `null`. -/
theorem option?_option {write : α → Json} {read : Json → Option α} {a? : Option α}
    (hwritten : ∀ a, write a ≠ .null) (h : ∀ a ∈ a?, read (write a) = some a) :
    option? read (Json.option write a?) = some a? := by
  cases a? with
  | none => rfl
  | some a =>
      have hread : option? read (write a) = (read (write a)).map some := by
        cases hw : write a with
        | null => exact absurd hw (hwritten a)
        | _ => rfl
      show option? read (write a) = some (some a)
      rw [hread, h a rfl]
      rfl

/-- Taking one entry out leaves the others to be found. -/
theorem get?_filter_ne {es : List (String × Json)} {key tag : String} (h : key ≠ tag) :
    (Json.object (es.filter fun e => e.1 != tag)).get? key = (Json.object es).get? key := by
  have hkeep : ∀ e : String × Json, (e.1 != tag && e.1 == key) = (e.1 == key) := by
    intro e
    by_cases hkey : e.1 = key
    · simp [hkey, h]
    · simp [hkey]
  simp only [get?, List.find?_filter, Bool.decide_and, Bool.decide_eq_true, hkeep]

/-- Only an empty array is read as an empty list. -/
theorem array?_eq_some_nil_iff {read : Json → Option α} {v : Json} :
    v.array? read = some [] ↔ v = .array [] := by
  constructor
  · intro h
    cases v with
    | array items =>
        cases items with
        | nil => rfl
        | cons item items =>
            simp only [array?, List.mapM_cons] at h
            cases hitem : read item with
            | none => simp [hitem] at h
            | some a => cases hitems : items.mapM read <;> simp [hitem, hitems] at h
    | _ => cases h
  · rintro rfl
    rfl

namespace Layout

variable {read : Json → Option α} {es : List (String × Json)} {position : Nat} {name : String}

theorem optional_keyed :
    (keyed es).optional read position name =
      match (Json.object es).get? name with
      | some v => option? read v
      | none => some none := by
  have hfind : (keyed es).find? position name = (Json.object es).get? name := rfl
  unfold optional
  rw [hfind]
  cases (Json.object es).get? name <;> rfl

/-- An entry is read as absence where it is missing or `null`. -/
theorem optional_keyed_eq_none_iff :
    (keyed es).optional read position name = some none ↔
      (Json.object es).get? name = none ∨ (Json.object es).get? name = some .null := by
  rw [optional_keyed]
  cases (Json.object es).get? name with
  | none => simp
  | some v => cases v <;> simp [option?]

/-- An entry is read as an empty list where it is an empty array. -/
theorem optional_keyed_eq_nil_iff {name : String} :
    (keyed es).optional (array? read) position name = some (some []) ↔
      (Json.object es).get? name = some (.array []) := by
  rw [optional_keyed]
  cases (Json.object es).get? name with
  | none => simp
  | some v =>
      have hread : option? (array? read) v = some (some []) ↔ v.array? read = some [] := by
        cases v <;> simp [option?, array?]
      rw [hread, array?_eq_some_nil_iff, Option.some_inj]

end Layout

end AccessorScan.Json
