import AccessorScan.Files.Discovery
import Mathlib.Data.List.Sort
import Mathlib.Data.List.TakeWhile

/-!
# `Proofs.PathOrder` — the order of paths

Paths are compared component by component: the root comes first, then the directory itself, the directory
above and the names by their characters. That is a strict order up to the spelling of paths, so paths with
different components can be listed in one strictly increasing way only.

## Contents
- `PathComponent.compare_eq`, `transCmp`, `lawfulEqCmp`: components are totally ordered.
- `FilePath.before_iff`, `before_iff_lex`, `before_trans`, `before_irrefl`, `components_eq_of_not_before`.
- `FilePath.Increasing.ext`: an increasing list is determined by its members.
- `mem_sortPaths`, `sortPaths_increasing`, `FilePath.Increasing.sortPaths_eq`: what sorting
  gives.
- `FilePath.isJava_iff`: the names of source files.
-/

namespace AccessorScan

/-! ## Components -/

namespace PathComponent

/-- The characters of a name. -/
def nameText : PathComponent → String
  | name text => text
  | root => ""
  | current => ""
  | up => ""

theorem compare_eq :
    compare = compareLex (compareOn PathComponent.rank) (compareOn PathComponent.nameText) := by
  funext a b
  cases a <;> cases b <;> rfl

instance transCmp : Std.TransCmp compare := by
  rw [compare_eq]
  infer_instance

instance lawfulEqCmp : Std.LawfulEqCmp compare where
  compare_self := Std.ReflCmp.compare_self
  eq_of_compare {a b} h := by
    rw [compare_eq, compareLex_eq_eq] at h
    have hrank : a.rank = b.rank := Std.LawfulEqOrd.eq_of_compare h.1
    have htext : a.nameText = b.nameText := Std.LawfulEqOrd.eq_of_compare h.2
    cases a <;> cases b <;> simp_all [rank, nameText]

end PathComponent

/-! ## Paths -/

namespace FilePath

variable {p q r : FilePath}

theorem before_go_iff (as bs : List PathComponent) :
    before.go as bs = true ↔ List.compareLex PathComponent.compare as bs = .lt := by
  induction as generalizing bs with
  | nil => cases bs <;> simp [before.go, List.compareLex]
  | cons a as ih =>
      cases bs with
      | nil => simp [before.go, List.compareLex]
      | cons b bs =>
          rw [before.go, List.compareLex_cons_cons]
          cases PathComponent.compare a b with
          | lt => simp
          | gt => simp
          | eq => simpa using ih bs

theorem before_iff :
    p.before q = true ↔ List.compareLex PathComponent.compare p.components q.components = .lt :=
  before_go_iff _ _

/-- The order is the lexicographic one: at the first difference the components decide, and without one the
    path that ends first comes first. -/
theorem before_iff_lex :
    p.before q = true ↔
      List.Lex (fun a b => PathComponent.compare a b = .lt) p.components q.components := by
  rw [before_iff]
  generalize p.components = as, q.components = bs
  induction as generalizing bs with
  | nil => cases bs <;> simp [List.compareLex]
  | cons a as ih =>
      cases bs with
      | nil => simp [List.compareLex]
      | cons b bs =>
          rw [List.compareLex_cons_cons, Ordering.then_eq_lt, List.cons_lex_cons_iff, ih bs,
            Std.LawfulEqCmp.compare_eq_iff_eq]

theorem components_ne_of_before (h : p.before q = true) : p.components ≠ q.components := by
  intro heq
  have hself : List.compareLex PathComponent.compare q.components q.components = .eq :=
    Std.ReflCmp.compare_self
  rw [before_iff, heq, hself] at h
  cases h

theorem before_irrefl (p : FilePath) : p.before p = false :=
  Bool.eq_false_iff.mpr fun h => components_ne_of_before h rfl

theorem before_trans (hpq : p.before q = true) (hqr : q.before r = true) : p.before r = true :=
  before_iff.mpr (Std.TransCmp.lt_trans (before_iff.mp hpq) (before_iff.mp hqr))

theorem before_eq_false_iff :
    q.before p = false ↔
      (List.compareLex PathComponent.compare p.components q.components).isLE = true := by
  rw [Bool.eq_false_iff, Ne, before_iff, ← Std.OrientedCmp.gt_iff_lt, ← Ne, Ordering.isLE_iff_ne_gt]

/-- Paths of which neither comes first are spellings of one path. -/
theorem components_eq_of_not_before (hpq : p.before q = false) (hqp : q.before p = false) :
    p.components = q.components := by
  rw [Bool.eq_false_iff, Ne, before_iff] at hpq hqp
  cases h : List.compareLex PathComponent.compare p.components q.components with
  | lt => exact absurd h hpq
  | gt => exact absurd (Std.OrientedCmp.lt_of_gt h) hqp
  | eq => exact Std.LawfulEqCmp.eq_of_compare h

/-- The components of each path of the list are smaller, in the lexicographic order, than those of all paths
    that follow it. -/
def Increasing (ps : List FilePath) : Prop :=
  ps.Pairwise fun p q => List.Lex (fun a b => PathComponent.compare a b = .lt) p.components q.components

namespace Increasing

variable {ps qs : List FilePath}

theorem components_nodup (h : Increasing ps) : (ps.map components).Nodup :=
  List.pairwise_map.mpr (h.imp fun hlex => components_ne_of_before (before_iff_lex.mpr hlex))

theorem nodup (h : Increasing ps) : ps.Nodup := h.components_nodup.of_map components

/-- There is one increasing list of the same paths. -/
theorem ext (hps : Increasing ps) (hqs : Increasing qs) (hmem : ∀ p, p ∈ ps ↔ p ∈ qs) : ps = qs := by
  have hperm : ps.Perm qs := (List.perm_ext_iff_of_nodup hps.nodup hqs.nodup).mpr hmem
  refine hperm.eq_of_pairwise (fun p q _ _ hpq hqp => ?_) hps hqs
  have hself := before_trans (before_iff_lex.mpr hpq) (before_iff_lex.mpr hqp)
  rw [before_irrefl] at hself
  cases hself

end Increasing

end FilePath

/-! ## Sorting -/

variable {ps qs : List FilePath}

theorem mem_sortPaths {p : FilePath} : p ∈ sortPaths ps ↔ p ∈ ps :=
  (List.mergeSort_perm ps _).mem_iff

/-- In a sorted list no path comes after one that follows it. -/
theorem sortPaths_pairwise (ps : List FilePath) :
    (sortPaths ps).Pairwise fun p q => q.before p = false := by
  have htrans : ∀ p q r : FilePath, (!q.before p) = true → (!r.before q) = true → (!r.before p) = true := by
    intro p q r hpq hqr
    rw [Bool.not_eq_eq_eq_not, Bool.not_true, FilePath.before_eq_false_iff] at hpq hqr ⊢
    exact Std.TransCmp.isLE_trans hpq hqr
  have htotal : ∀ p q : FilePath, (!q.before p || !p.before q) = true := by
    intro p q
    cases hpq : p.before q with
    | false => simp
    | true =>
        cases hqp : q.before p with
        | false => simp
        | true =>
            have hself := FilePath.before_trans hpq hqp
            rw [FilePath.before_irrefl] at hself
            cases hself
  exact (List.pairwise_mergeSort htrans htotal ps).imp fun h => by simpa using h

/-- Paths of different components are sorted into an increasing list. -/
theorem sortPaths_increasing (h : (ps.map FilePath.components).Nodup) :
    FilePath.Increasing (sortPaths ps) := by
  have hdistinct : (sortPaths ps).Pairwise fun p q => p.components ≠ q.components :=
    List.pairwise_map.mp (((List.mergeSort_perm ps _).map _).nodup_iff.mpr h)
  refine ((sortPaths_pairwise ps).and hdistinct).imp fun {p q} ⟨hback, hne⟩ => FilePath.before_iff_lex.mp ?_
  by_contra hbefore
  exact hne (FilePath.components_eq_of_not_before (Bool.eq_false_iff.mpr hbefore) hback)

/-- The paths of an increasing list are sorted into this list, whatever order they come in. -/
theorem FilePath.Increasing.sortPaths_eq (hps : Increasing ps) (h : qs.Perm ps) : sortPaths qs = ps := by
  refine (sortPaths_increasing ((h.map _).nodup_iff.mpr hps.components_nodup)).ext hps fun p => ?_
  rw [mem_sortPaths, h.mem_iff]

/-! ## Names of source files -/

namespace FilePath

variable {p : FilePath}

/-- Characters with a point are those before the last one, the point, and those after it. -/
theorem exists_lastPoint {cs : List Char} (h : (cs.reverse.takeWhile (· != '.')).length < cs.length) :
    ∃ before, cs = before ++ '.' :: (cs.reverse.takeWhile (· != '.')).reverse := by
  have hsplit := List.takeWhile_append_dropWhile (p := (· != '.')) (l := cs.reverse)
  cases hrest : cs.reverse.dropWhile (· != '.') with
  | nil =>
      have hlength := congrArg List.length hsplit
      rw [hrest, List.append_nil, List.length_reverse] at hlength
      exact absurd h (by omega)
  | cons c rest =>
      have hpoint : c = '.' := by
        have hhead := List.head?_dropWhile_not (· != '.') cs.reverse
        rw [hrest] at hhead
        simpa using hhead
      refine ⟨rest.reverse, ?_⟩
      rw [hrest, hpoint] at hsplit
      have hreverse := congrArg List.reverse hsplit
      rw [List.reverse_reverse, List.reverse_append, List.reverse_cons, List.append_assoc] at hreverse
      exact hreverse.symm

/-- What follows a point is all that follows the last point, if there is no point in it. -/
theorem takeWhile_lastPoint {after : List Char} (h : '.' ∉ after) (before : List Char) :
    (before ++ '.' :: after).reverse.takeWhile (· != '.') = after.reverse := by
  have hafter : ∀ c ∈ after.reverse, (c != '.') = true := fun c hc => by
    rw [bne_iff_ne]
    rintro rfl
    exact h (List.mem_reverse.mp hc)
  rw [List.reverse_append, List.reverse_cons, List.append_assoc, List.takeWhile_append_of_pos hafter,
    List.singleton_append, List.takeWhile_cons_of_neg (by simp), List.append_nil]

/-- The extension is what follows the last point of the name, if something stands before the point. -/
theorem extension?_eq_some_iff {ending : String} :
    p.extension? = some ending ↔
      ∃ stem, p.fileName? = some (stem ++ "." ++ ending) ∧ stem ≠ "" ∧ '.' ∉ ending.toList := by
  have hparts : ∀ stem : String,
      (stem ++ "." ++ ending).toList = stem.toList ++ '.' :: ending.toList := by simp
  unfold extension?
  cases p.fileName? with
  | none => simp
  | some name =>
      simp only [Option.bind_eq_bind, Option.bind_some, List.length_dropLast,
        Option.ite_none_right_eq_some, Option.some_inj]
      constructor
      · rintro ⟨⟨hlength, hbefore⟩, rfl⟩
        obtain ⟨before, hname⟩ := exists_lastPoint hlength
        have hsize := congrArg List.length hname
        rw [List.length_append, List.length_cons, List.length_reverse] at hsize
        refine ⟨String.ofList before, String.toList_injective ?_, fun hempty => ?_, fun hpoint => ?_⟩
        · rw [hparts, String.toList_ofList, String.toList_ofList]
          exact hname
        · obtain rfl : before = [] := by simpa using hempty
          rw [List.length_nil] at hsize
          omega
        · rw [String.toList_ofList, List.mem_reverse] at hpoint
          simpa using List.mem_takeWhile_imp hpoint
      · rintro ⟨stem, rfl, hstem, hending⟩
        have hsize : 0 < stem.toList.length := List.length_pos_iff.mpr (by simpa using hstem)
        rw [hparts, takeWhile_lastPoint hending, List.length_reverse, List.reverse_reverse,
          String.ofList_toList, List.length_append, List.length_cons]
        exact ⟨⟨by omega, by omega⟩, rfl⟩

/-- A source file has a name that ends in `.java`, in letters of either case, with something before it. -/
theorem isJava_iff :
    p.isJava = true ↔
      ∃ stem ending, p.fileName? = some (stem ++ "." ++ ending) ∧ stem ≠ "" ∧ ending.toLower = "java" := by
  have hlower : ∀ ending : String, ending.toList.map Char.toLower = ['j', 'a', 'v', 'a'] ↔
      ending.toLower = "java" := fun ending => by
    show _ ↔ String.map Char.toLower ending = "java"
    rw [← String.toList_inj, String.toList_map]
    rfl
  have hpoint : ∀ ending : String, ending.toLower = "java" → '.' ∉ ending.toList := by
    intro ending h hmem
    have hlow := List.mem_map_of_mem (f := Char.toLower) hmem
    rw [(hlower ending).mpr h] at hlow
    exact absurd hlow (by decide)
  simp only [isJava, Option.any_eq_true, extension?_eq_some_iff, beq_iff_eq, hlower]
  constructor
  · rintro ⟨ending, ⟨stem, hname, hstem, -⟩, hjava⟩
    exact ⟨stem, ending, hname, hstem, hjava⟩
  · rintro ⟨stem, ending, hname, hstem, hjava⟩
    exact ⟨ending, ⟨stem, hname, hstem, hpoint ending hjava⟩, hjava⟩

end FilePath

end AccessorScan
