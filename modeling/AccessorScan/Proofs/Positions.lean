import AccessorScan.Proofs.Occurrences
import Mathlib.Data.List.Basic

/-!
# `Proofs.Positions` — every callable has one verdict, judged in its own type

A callable is told apart from all others, equal ones included, by its position: the number of the type
it stands in, then the number of the member that it or a type around it is on each level below.
Verdicts correspond one to one to the positions of callables, and they come in an order of positions.

## Contents
- `Position`, `TypeDecl.CallableAt`, `CallableAt`: which callable stands at a position.
- `Precedes`: of two positions, the one whose verdict comes first.
- `TypeDecl.placed`, `placed`: the callables with their positions, in the order of the verdicts.
- `TypeDecl.mem_placed`, `TypeDecl.pairwise_placed`, `TypeDecl.verdictsUnder_eq_map`: no callable is
  left out or listed twice, and each is judged by the fields of its own type.
- `exists_run_of_pairwise`, `Precedes.convex`: what stands inside one type stays together.
- `verdicts_placed`.
-/

namespace AccessorScan

/-- Where something stands in a source: the number of a type, then the number of a member on each level
    below. -/
abbrev Position := List Nat

/-- In the type `t` that is reached under this path, the callable `o` stands at a position: it is a member
    of `t`, or it stands in a type that is one. -/
inductive TypeDecl.CallableAt : List String → TypeDecl → Position → Occurrence → Prop where
  | own {path : List String} {t : TypeDecl} {i : Nat} {m : Member} (h : t.members[i]? = some m)
      (hm : m.callable?.isSome = true) : CallableAt path t [i] ⟨path, t, m⟩
  | nested {path : List String} {t n : TypeDecl} {i : Nat} {p : Position} {o : Occurrence}
      (h : t.members[i]? = some (.type n)) (hn : CallableAt (path ++ [n.name]) n p o) :
      CallableAt path t (i :: p) o

/-- In a source that declares these types, the callable `o` stands at this position. -/
def CallableAt (types : List TypeDecl) (p : Position) (o : Occurrence) : Prop :=
  ∃ i rest t, p = i :: rest ∧ types[i]? = some t ∧ t.CallableAt [t.name] rest o

/-- The verdict on what stands at one position comes before the verdict on what stands at the other:
    in every type first its own callables as they are declared, then one nested type after the other. -/
inductive Precedes : Position → Position → Prop where
  | own {i j : Nat} (h : i < j) : Precedes [i] [j]
  | inner {i j : Nat} {q : Position} (hq : q ≠ []) : Precedes [i] (j :: q)
  | later {i j : Nat} {p q : Position} (h : i < j) (hp : p ≠ []) (hq : q ≠ []) :
      Precedes (i :: p) (j :: q)
  | under {i : Nat} {p q : Position} (h : Precedes p q) : Precedes (i :: p) (i :: q)

/-- The position `q` is in the type at the position `p`, or in one nested in that. -/
def Position.Inside (p q : Position) : Prop := ∃ rest, rest ≠ [] ∧ q = p ++ rest

/-- A callable with its position. -/
structure Placed where
  position : Position
  occurrence : Occurrence

/-- The position as it is seen from outside the type of the number `i`. -/
def Placed.under (i : Nat) (c : Placed) : Placed := ⟨i :: c.position, c.occurrence⟩

namespace TypeDecl

/-- The callables declared directly in a type. -/
def ownPlaced (path : List String) (t : TypeDecl) : List Placed :=
  t.members.zipIdx.filterMap fun m =>
    if m.1.callable?.isSome then some ⟨[m.2], path, t, m.1⟩ else none

/-- The types declared directly in a type, with their numbers among its members. -/
def numberedNested (t : TypeDecl) : List (TypeDecl × Nat) :=
  t.members.zipIdx.filterMap fun m => m.1.type?.map fun n => (n, m.2)

theorem mem_numberedNested {t n : TypeDecl} {i : Nat} :
    (n, i) ∈ t.numberedNested ↔ t.members[i]? = some (.type n) := by
  rw [numberedNested, List.mem_filterMap, ← List.mk_mem_zipIdx_iff_getElem?]
  constructor
  · rintro ⟨⟨m, j⟩, hm, h⟩
    obtain ⟨n', hn', heq⟩ := Option.map_eq_some_iff.mp h
    obtain ⟨rfl, rfl⟩ := Prod.mk.inj heq
    cases m with
    | type t' =>
        obtain rfl := Option.some.inj hn'
        exact hm
    | field _ => cases hn'
    | method _ => cases hn'
    | constructor _ => cases hn'
    | other _ => cases hn'
  · intro h
    exact ⟨_, h, rfl⟩

theorem map_fst_numberedNested (t : TypeDecl) : t.numberedNested.map Prod.fst = t.nested := by
  have hmembers : t.nested = (t.members.zipIdx.map Prod.fst).filterMap Member.type? := by
    rw [List.zipIdx_map_fst, nested]
  rw [hmembers, numberedNested, List.map_filterMap, List.filterMap_map]
  refine List.filterMap_congr fun m _ => ?_
  rw [Option.map_map]
  exact Option.map_id_apply

theorem mem_nested_of_mem_numberedNested {t : TypeDecl} {n : TypeDecl × Nat}
    (h : n ∈ t.numberedNested) : n.1 ∈ t.nested := by
  rw [← map_fst_numberedNested]
  exact List.mem_map_of_mem h

/-- The callables in a type that is reached under this path, with their positions in it, in the order
    of their verdicts. -/
def placed (path : List String) (t : TypeDecl) : List Placed :=
  t.ownPlaced path ++ t.numberedNested.attach.flatMap fun n =>
    (n.val.1.placed (path ++ [n.val.1.name])).map (Placed.under n.val.2)
termination_by sizeOf t
decreasing_by exact sizeOf_lt_of_mem_nested (mem_nested_of_mem_numberedNested n.property)

theorem placed_eq (path : List String) (t : TypeDecl) :
    t.placed path =
      t.ownPlaced path ++ t.numberedNested.flatMap fun n =>
        (n.1.placed (path ++ [n.1.name])).map (Placed.under n.2) := by
  rw [placed,
    List.flatMap_subtype
      (g := fun n => (n.1.placed (path ++ [n.1.name])).map (Placed.under n.2)) fun _ _ => rfl,
    List.unattach_attach]

end TypeDecl

/-- The callables of a source with their positions, in the order of their verdicts. -/
def placed (types : List TypeDecl) : List Placed :=
  types.zipIdx.flatMap fun t => (t.1.placed [t.1.name]).map (Placed.under t.2)

/-! ## Every callable is listed -/

namespace TypeDecl

variable {path : List String} {t : TypeDecl} {c : Placed}

theorem mem_ownPlaced :
    c ∈ t.ownPlaced path ↔
      ∃ i m, t.members[i]? = some m ∧ m.callable?.isSome = true ∧ c = ⟨[i], path, t, m⟩ := by
  rw [ownPlaced, List.mem_filterMap]
  constructor
  · rintro ⟨⟨m, i⟩, hm, h⟩
    obtain ⟨hcallable, hc⟩ := Option.ite_none_right_eq_some.mp h
    exact ⟨i, m, List.mk_mem_zipIdx_iff_getElem?.mp hm, hcallable, (Option.some.inj hc).symm⟩
  · rintro ⟨i, m, hm, hcallable, rfl⟩
    exact ⟨(m, i), List.mk_mem_zipIdx_iff_getElem?.mpr hm, if_pos hcallable⟩

/-- **In one type.** The callables that are listed are those that stand in the type. -/
theorem mem_placed (t : TypeDecl) :
    ∀ {path : List String} {c : Placed},
      c ∈ t.placed path ↔ t.CallableAt path c.position c.occurrence := by
  induction t using nested_induction with
  | step t ih =>
      intro path c
      rw [placed_eq, List.mem_append, List.mem_flatMap]
      constructor
      · rintro (hc | ⟨⟨n, i⟩, hn, hc⟩)
        · obtain ⟨i, m, hm, hcallable, rfl⟩ := mem_ownPlaced.mp hc
          exact .own hm hcallable
        · obtain ⟨d, hd, rfl⟩ := List.mem_map.mp hc
          have hnested := mem_nested_of_mem_numberedNested hn
          exact .nested (mem_numberedNested.mp hn) ((ih n hnested).mp hd)
      · obtain ⟨position, occurrence⟩ := c
        intro h
        cases h with
        | own hm hcallable => exact .inl (mem_ownPlaced.mpr ⟨_, _, hm, hcallable, rfl⟩)
        | @nested _ _ n i p _ hm hn =>
            have hmem := mem_numberedNested.mpr hm
            have hd : (⟨p, occurrence⟩ : Placed) ∈ n.placed (path ++ [n.name]) :=
              (ih n (mem_nested_of_mem_numberedNested hmem)).mpr hn
            exact .inr ⟨(n, i), hmem, List.mem_map_of_mem hd⟩

end TypeDecl

theorem mem_placed {types : List TypeDecl} {c : Placed} :
    c ∈ placed types ↔ CallableAt types c.position c.occurrence := by
  rw [placed, List.mem_flatMap]
  constructor
  · rintro ⟨⟨t, i⟩, ht, hc⟩
    obtain ⟨d, hd, rfl⟩ := List.mem_map.mp hc
    exact ⟨i, d.position, t, rfl, List.mk_mem_zipIdx_iff_getElem?.mp ht, t.mem_placed.mp hd⟩
  · obtain ⟨position, occurrence⟩ := c
    rintro ⟨i, rest, t, rfl, ht, h⟩
    have hd : (⟨rest, occurrence⟩ : Placed) ∈ t.placed [t.name] := t.mem_placed.mpr h
    exact ⟨(t, i), List.mk_mem_zipIdx_iff_getElem?.mpr ht, List.mem_map_of_mem hd⟩

/-! ## The order of positions -/

theorem TypeDecl.CallableAt.ne_nil {path : List String} {t : TypeDecl} {p : Position} {o : Occurrence}
    (h : t.CallableAt path p o) : p ≠ [] := by
  cases h <;> exact List.cons_ne_nil _ _

theorem TypeDecl.position_ne_nil_of_mem_placed {path : List String} {t : TypeDecl} {c : Placed}
    (h : c ∈ t.placed path) : c.position ≠ [] :=
  (t.mem_placed.mp h).ne_nil

theorem Precedes.irrefl {p : Position} : ¬ Precedes p p := by
  induction p with
  | nil => exact nofun
  | cons i p ih =>
      intro h
      cases h with
      | own h => exact Nat.lt_irrefl i h
      | inner h => exact h rfl
      | later h => exact Nat.lt_irrefl i h
      | under h => exact ih h

/-- What comes between two positions inside a type is inside that type too. -/
theorem Precedes.convex {p a b c : Position} (ha : p.Inside a) (hc : p.Inside c) (hab : Precedes a b)
    (hbc : Precedes b c) : p.Inside b := by
  obtain ⟨x, hx, rfl⟩ := ha
  obtain ⟨z, hz, rfl⟩ := hc
  induction p generalizing b with
  | nil =>
      refine ⟨b, ?_, rfl⟩
      rintro rfl
      cases hbc
  | cons i p ih =>
      have hx' : p ++ x ≠ [] := List.append_ne_nil_of_right_ne_nil p hx
      have hz' : p ++ z ≠ [] := List.append_ne_nil_of_right_ne_nil p hz
      rw [List.cons_append] at hab hbc
      generalize hu : p ++ x = u at hab hx'
      generalize hv : p ++ z = v at hbc hz'
      -- the first number of `b` is neither less nor greater than `i`
      have hhead : ∃ y, b = i :: y ∧ Precedes u y ∧ Precedes y v := by
        cases hab with
        | own h => exact absurd rfl hx'
        | inner h => exact absurd rfl hx'
        | later hij _ hy =>
            cases hbc with
            | own h => exact absurd rfl hy
            | inner h => exact absurd rfl hy
            | later hji => omega
            | under => omega
        | under hab =>
            cases hbc with
            | own h => exact absurd rfl hz'
            | inner h => cases hab
            | later hii => omega
            | under hbc => exact ⟨_, rfl, hab, hbc⟩
      obtain ⟨y, rfl, huy, hyv⟩ := hhead
      subst hu hv
      obtain ⟨rest, hrest, rfl⟩ := ih huy hyv
      exact ⟨rest, hrest, rfl⟩

theorem pairwise_snd_zipIdx {α : Type} (l : List α) :
    l.zipIdx.Pairwise fun a b => a.2 < b.2 := by
  have hrange : (l.zipIdx.map Prod.snd).Pairwise (· < ·) := by
    rw [List.zipIdx_map_snd]
    exact List.pairwise_lt_range'
  exact List.pairwise_map.mp hrange

/-- What stands in types of ascending numbers is in order if it is so in each of them. -/
theorem pairwise_flatMap_under {ts : List (TypeDecl × Nat)} {f : TypeDecl → List Placed}
    (hts : ts.Pairwise fun a b => a.2 < b.2) (hne : ∀ t ∈ ts, ∀ c ∈ f t.1, c.position ≠ [])
    (hf : ∀ t ∈ ts, (f t.1).Pairwise fun a b => Precedes a.position b.position) :
    (ts.flatMap fun t => (f t.1).map (Placed.under t.2)).Pairwise
      fun a b => Precedes a.position b.position := by
  refine List.pairwise_flatMap.mpr ⟨fun t ht => ?_, ?_⟩
  · exact List.pairwise_map.mpr ((hf t ht).imp .under)
  · refine hts.imp_of_mem fun ht hu hlt => ?_
    intro x hx y hy
    obtain ⟨a, ha, rfl⟩ := List.mem_map.mp hx
    obtain ⟨b, hb, rfl⟩ := List.mem_map.mp hy
    exact .later hlt (hne _ ht a ha) (hne _ hu b hb)

namespace TypeDecl

theorem pairwise_numberedNested (t : TypeDecl) :
    t.numberedNested.Pairwise fun a b => a.2 < b.2 := by
  refine List.pairwise_filterMap.mpr ((pairwise_snd_zipIdx t.members).imp ?_)
  intro a b hlt x hx y hy
  obtain ⟨_, -, rfl⟩ := Option.map_eq_some_iff.mp hx
  obtain ⟨_, -, rfl⟩ := Option.map_eq_some_iff.mp hy
  exact hlt

theorem pairwise_ownPlaced (path : List String) (t : TypeDecl) :
    (t.ownPlaced path).Pairwise fun a b => Precedes a.position b.position := by
  refine List.pairwise_filterMap.mpr ((pairwise_snd_zipIdx t.members).imp ?_)
  intro a b hlt x hx y hy
  obtain ⟨-, hx⟩ := Option.ite_none_right_eq_some.mp hx
  obtain ⟨-, hy⟩ := Option.ite_none_right_eq_some.mp hy
  obtain rfl := Option.some.inj hx
  obtain rfl := Option.some.inj hy
  exact .own hlt

/-- **In one type.** The callables are listed in the order of their positions. -/
theorem pairwise_placed (t : TypeDecl) :
    ∀ {path : List String},
      (t.placed path).Pairwise fun a b => Precedes a.position b.position := by
  induction t using nested_induction with
  | step t ih =>
      intro path
      rw [placed_eq, List.pairwise_append]
      refine ⟨pairwise_ownPlaced path t, ?_, fun a ha b hb => ?_⟩
      · refine pairwise_flatMap_under (f := fun n => n.placed (path ++ [n.name]))
          t.pairwise_numberedNested (fun n _ c hc => ?_) fun n hn => ?_
        · exact position_ne_nil_of_mem_placed hc
        · exact ih n.1 (mem_nested_of_mem_numberedNested hn)
      · obtain ⟨i, m, -, -, rfl⟩ := mem_ownPlaced.mp ha
        obtain ⟨n, hn, hb⟩ := List.mem_flatMap.mp hb
        obtain ⟨d, hd, rfl⟩ := List.mem_map.mp hb
        exact .inner (position_ne_nil_of_mem_placed hd)

end TypeDecl

theorem pairwise_placed (types : List TypeDecl) :
    (placed types).Pairwise fun a b => Precedes a.position b.position :=
  pairwise_flatMap_under (f := fun t => t.placed [t.name]) (pairwise_snd_zipIdx types)
    (fun _ _ _ hc => TypeDecl.position_ne_nil_of_mem_placed hc) fun t _ => t.1.pairwise_placed

/-- Where things of one sort stay together in an order, they are one run of any list in that order. -/
theorem exists_run_of_pairwise {α : Type} {r : α → α → Prop} {p : α → Prop} {l : List α}
    (hl : l.Pairwise r) (hconvex : ∀ {a b c}, p a → p c → r a b → r b c → p b) :
    ∃ before inner after, l = before ++ inner ++ after ∧ (∀ a ∈ inner, p a) ∧
      ∀ a ∈ before ++ after, ¬ p a := by
  induction l with
  | nil => exact ⟨[], [], [], rfl, nofun, nofun⟩
  | cons x l ih =>
      obtain ⟨hx, hl⟩ := List.pairwise_cons.mp hl
      obtain ⟨before, inner, after, rfl, hinner, houter⟩ := ih hl
      by_cases hpx : p x
      · cases inner with
        | nil =>
            refine ⟨[], [x], before ++ after, by simp, ?_, houter⟩
            intro a ha
            obtain rfl := List.mem_singleton.mp ha
            exact hpx
        | cons y inner =>
            -- nothing can stand between `x` and the run that starts with `y`
            have hbefore : before = [] := by
              cases before with
              | nil => rfl
              | cons b before =>
                  have hb : b ∈ b :: before ++ y :: inner ++ after := by simp
                  have hby : r b y := by
                    obtain ⟨hby, -⟩ := List.pairwise_cons.mp hl
                    exact hby y (by simp)
                  have hpb : p b := hconvex hpx (hinner y List.mem_cons_self) (hx b hb) hby
                  exact absurd hpb (houter b (by simp))
            subst hbefore
            refine ⟨[], x :: y :: inner, after, by simp, ?_, houter⟩
            intro a ha
            rcases List.mem_cons.mp ha with rfl | ha
            · exact hpx
            · exact hinner a ha
      · refine ⟨x :: before, inner, after, by simp, hinner, ?_⟩
        intro a ha
        rcases List.mem_cons.mp ha with rfl | ha
        · exact hpx
        · exact houter a ha

/-! ## The verdicts -/

namespace TypeDecl

theorem ownVerdicts_eq_map (path : List String) (t : TypeDecl) :
    t.ownVerdicts (".".intercalate path) =
      (t.ownPlaced path).map fun c => c.occurrence.verdict := by
  have hcallables : t.callables =
      t.members.zipIdx.filterMap fun m => if m.1.callable?.isSome then some m.1 else none := by
    have hmembers : t.callables =
        (t.members.zipIdx.map Prod.fst).filter fun m => m.callable?.isSome := by
      rw [List.zipIdx_map_fst, callables]
    rw [hmembers, ← List.filterMap_eq_filter, List.filterMap_map]
    exact List.filterMap_congr fun m _ => by simp [Option.guard]
  rw [ownVerdicts, hcallables, ownPlaced, List.map_filterMap, List.map_filterMap]
  refine List.filterMap_congr fun m _ => ?_
  by_cases hm : m.1.callable?.isSome = true
  · rw [if_pos hm, if_pos hm]
    rfl
  · rw [if_neg hm, if_neg hm]
    rfl

/-- **In one type.** The verdicts are those on the callables listed, each judged by the fields of the
    type that declares it. -/
theorem verdictsUnder_eq_map (t : TypeDecl) :
    ∀ {path : List String}, path ≠ [] →
      t.verdictsUnder (".".intercalate path) =
        (t.placed path).map fun c => c.occurrence.verdict := by
  induction t using nested_induction with
  | step t ih =>
      intro path hpath
      rw [verdictsUnder_eq, placed_eq, List.map_append, ownVerdicts_eq_map,
        ← map_fst_numberedNested, List.flatMap_map, List.map_flatMap]
      congr 1
      refine List.flatMap_congr fun n hn => ?_
      have hne : path ++ [n.1.name] ≠ [] := List.append_ne_nil_of_right_ne_nil path (by simp)
      rw [← intercalate_dot_concat hpath, ih n.1 (mem_nested_of_mem_numberedNested hn) hne,
        List.map_map]
      rfl

end TypeDecl

theorem verdicts_eq_map (types : List TypeDecl) :
    verdicts types = (placed types).map fun c => c.occurrence.verdict := by
  have htypes : verdicts types =
      (types.zipIdx.map Prod.fst).flatMap fun t => t.verdictsUnder t.name := by
    rw [List.zipIdx_map_fst, verdicts]
  rw [htypes, placed, List.map_flatMap, List.flatMap_map]
  refine List.flatMap_congr fun t _ => ?_
  have hpath : ".".intercalate [t.1.name] = t.1.name := String.intercalate_singleton
  rw [List.map_map, ← hpath, t.1.verdictsUnder_eq_map (by simp), hpath]
  rfl

/-- **Verdicts and callables correspond one to one.** The verdicts on a source are those on the
    callables that stand in it, one for each position. They come in the order of positions, so that
    own callables are in the order of their declaration and before those of nested types, and what
    stands inside one type stays together. Sources that follow each other have their verdicts follow
    each other, and only the fields of its own type decide what a callable is. -/
theorem verdicts_placed :
    (∀ types,
      verdicts types = (placed types).map (fun c => c.occurrence.verdict) ∧
      (∀ c, c ∈ placed types ↔ CallableAt types c.position c.occurrence) ∧
      ((placed types).map Placed.position).Nodup ∧
      ((placed types).map Placed.position).Pairwise Precedes ∧
      ∀ p : Position, ∃ before inner after, placed types = before ++ inner ++ after ∧
        (∀ c ∈ inner, p.Inside c.position) ∧ ∀ c ∈ before ++ after, ¬ p.Inside c.position) ∧
    (∀ a b, verdicts (a ++ b) = verdicts a ++ verdicts b) ∧
    ∀ (t u : TypeDecl) (m : Member), t.fields = u.fields → classify t m = classify u m := by
  refine ⟨fun types => ⟨verdicts_eq_map types, fun c => mem_placed, ?_, ?_, fun p => ?_⟩,
    fun a b => ?_, fun t u m h => ?_⟩
  · refine List.pairwise_map.mpr ((pairwise_placed types).imp ?_)
    intro a b h heq
    rw [heq] at h
    exact h.irrefl
  · exact List.pairwise_map.mpr (pairwise_placed types)
  · exact exists_run_of_pairwise (pairwise_placed types) Precedes.convex
  · exact List.flatMap_append
  · rw [classify, classify, FieldIndex.ofType, FieldIndex.ofType, h]

/-- A field of an object, and a method that returns it. -/
def sameNamesField (modifiers : List Modifier) : Member :=
  .field ⟨"x", .primitive "int", modifiers, 1⟩

def sameNamesGetter (line : Nat) : Member :=
  .method ⟨"getX", [], .primitive "int", [], some [.result (some (.name "x"))], line⟩

/-- A type in a type in a type, with methods of one name on all three levels. Only the outermost type
    has a private field for them, and the one in the middle has a field of that name that is not. -/
def sameNames : TypeDecl :=
  ⟨"A", .ordinary, 1, [
    .type ⟨"B", .ordinary, 2, [
      sameNamesField [],
      .type ⟨"C", .ordinary, 3, [sameNamesGetter 4]⟩,
      sameNamesGetter 5]⟩,
    sameNamesField [.privateAccess],
    sameNamesGetter 6]⟩

/-- The private field is not seen from the nested types, and it would not matter if they were gone. -/
theorem verdicts_sameNames :
    verdicts [sameNames] =
      [⟨"A", "getX", 6, false, some (.getter "x")⟩, ⟨"A.B", "getX", 5, false, none⟩,
        ⟨"A.B.C", "getX", 4, false, none⟩] ∧
    (∃ c ∈ placed [sameNames], c.position = [0, 0, 1, 0] ∧
      c.occurrence.verdict = ⟨"A.B.C", "getX", 4, false, none⟩) ∧
    sameNames.fields = (⟨"A", .ordinary, 1, [sameNamesField [.privateAccess]]⟩ : TypeDecl).fields ∧
    classify sameNames (sameNamesGetter 6) =
      classify ⟨"A", .ordinary, 1, [sameNamesField [.privateAccess]]⟩ (sameNamesGetter 6) := by
  have hplaced := verdicts_placed
  have hfields : sameNames.fields =
      (⟨"A", .ordinary, 1, [sameNamesField [.privateAccess]]⟩ : TypeDecl).fields := rfl
  refine ⟨by decide, ?_, hfields, hplaced.2.2 _ _ _ hfields⟩
  have hinner : CallableAt [sameNames] [0, 0, 1, 0]
      ⟨["A", "B", "C"], ⟨"C", .ordinary, 3, [sameNamesGetter 4]⟩, sameNamesGetter 4⟩ :=
    ⟨0, _, _, rfl, rfl, .nested rfl (.nested rfl (.own rfl rfl))⟩
  exact ⟨⟨_, _⟩, ((hplaced.1 [sameNames]).2.1 ⟨_, _⟩).mpr hinner, rfl, by decide⟩

end AccessorScan
