import AccessorScan.Proofs.Occurrences
import AccessorScan.Proofs.SourceTrees
import AccessorScan.Scan.Basic

/-!
# `Proofs.Lookup` — a qualified name finds the first declaration in the source

Verdicts are not in document order, yet a look-up by qualified name finds what stands first in the
document. Names without dots can be read off the qualified name again, so two callables of one
qualified name have the same enclosing types by name. A callable of a type and one of a type nested in
it therefore never share a qualified name, and only such callables change places.

## Contents
- `intercalate_dot_injective`: dotted joining loses nothing on names without dots.
- `filter_flatMap_append`: when two interleaved lists may be told apart before a filter.
- `own_or_inner_filter_eq_nil`: callables that change places have different qualified names.
- `filter_verdictsUnder`, `filter_verdicts`: the callables of one qualified name come in document
  order.
- `findVerdict_eq_ok_iff`, `findVerdict_eq_notFound_iff`, `findVerdict_first_declared`.
-/

namespace AccessorScan

/-! ## Dotted names -/

theorem intercalate_dot_injective {a b : List String} (ha : a ≠ []) (hb : b ≠ [])
    (hpa : ∀ n ∈ a, IsPlainName n) (hpb : ∀ n ∈ b, IsPlainName n)
    (h : ".".intercalate a = ".".intercalate b) : a = b := by
  have hsplit : ∀ l : List String, l ≠ [] → (∀ n ∈ l, IsPlainName n) →
      (".".intercalate l).toList.splitOn '.' = l.map String.toList := by
    intro l hne hplain
    rw [String.toList_intercalate]
    refine List.splitOn_intercalate '.' ?_ (by simpa using hne)
    intro cs hcs
    obtain ⟨n, hn, rfl⟩ := List.mem_map.mp hcs
    exact hplain n hn
  have hmap : a.map String.toList = b.map String.toList := by
    rw [← hsplit a ha hpa, ← hsplit b hb hpb, h]
  exact List.map_inj_right (fun x y hxy => String.toList_inj.mp hxy) |>.mp hmap

theorem Occurrence.qualifiedName_verdict {o : Occurrence} (h : o.path ≠ []) :
    o.verdict.qualifiedName = o.qualifiedName := by
  rw [qualifiedName, intercalate_dot_concat h]
  rfl

/-! ## Filters over interleaved lists -/

/-- Two lists that are interleaved may be filtered one after the other if the filter drops all of one
    of them. -/
theorem filter_flatMap_append {α β : Type} {l : List α} {f g : α → List β} {p : β → Bool}
    (h : (l.flatMap f).filter p = [] ∨ (l.flatMap g).filter p = []) :
    (l.flatMap fun x => f x ++ g x).filter p =
      (l.flatMap f).filter p ++ (l.flatMap g).filter p := by
  have hkeep : ∀ k : α → List β, (l.flatMap k).filter p = [] → ∀ x ∈ l, (k x).filter p = [] := by
    intro k hk x hx
    rw [List.filter_flatMap, List.flatMap_eq_nil_iff] at hk
    exact hk x hx
  simp only [List.filter_flatMap, List.filter_append] at h ⊢
  rcases h with h | h
  · rw [h, List.nil_append]
    refine List.flatMap_congr fun x hx => ?_
    rw [hkeep f (by rw [List.filter_flatMap, h]) x hx, List.nil_append]
  · rw [h, List.append_nil]
    refine List.flatMap_congr fun x hx => ?_
    rw [hkeep g (by rw [List.filter_flatMap, h]) x hx, List.append_nil]

/-! ## The callables of one qualified name -/

/-- Under plain names, the qualified name tells the path and the name. -/
theorem path_eq_of_qualifiedName_eq {o r : Occurrence}
    (ho : ∀ n ∈ o.path ++ [o.name], IsPlainName n) (hr : ∀ n ∈ r.path ++ [r.name], IsPlainName n)
    (h : o.qualifiedName = r.qualifiedName) : o.path = r.path ∧ o.name = r.name := by
  have heq : o.path ++ [o.name] = r.path ++ [r.name] :=
    intercalate_dot_injective (by simp) (by simp) ho hr h
  exact ⟨List.append_inj_left' heq rfl, List.singleton_inj.mp (List.append_inj_right' heq rfl)⟩

theorem plain_of_mem_occurrences {outer : List String} {t : TypeDecl} {o : Occurrence}
    (houter : ∀ n ∈ outer, IsPlainName n) (ht : ∀ n ∈ t.declaredNames, IsPlainName n)
    (ho : o ∈ t.occurrences outer) : ∀ n ∈ o.path ++ [o.name], IsPlainName n := by
  obtain ⟨inner, hpath, hnames⟩ := t.exists_path_of_mem_occurrences ho
  intro n hn
  rw [hpath, List.append_assoc] at hn
  rcases List.mem_append.mp hn with hn | hn
  · exact houter n hn
  · exact ht n (hnames n hn)

/-- A type's own callables and those of the types nested in it share no qualified name. -/
theorem own_or_inner_filter_eq_nil {outer : List String} {t : TypeDecl}
    (houter : ∀ n ∈ outer, IsPlainName n) (ht : ∀ n ∈ t.declaredNames, IsPlainName n) (q : String) :
    (t.members.flatMap (Member.ownOccurrences (outer ++ [t.name]) t)).filter
        (·.qualifiedName == q) = [] ∨
      (t.members.flatMap (Member.innerOccurrences (outer ++ [t.name]))).filter
        (·.qualifiedName == q) = [] := by
  rw [Member.flatMap_ownOccurrences, Member.flatMap_innerOccurrences, or_iff_not_imp_left]
  intro hown
  obtain ⟨o, ho⟩ := List.exists_mem_of_ne_nil _ hown
  obtain ⟨ho, hoq⟩ := List.mem_filter.mp ho
  obtain ⟨m, hm, rfl⟩ := List.mem_map.mp ho
  rw [List.filter_eq_nil_iff]
  intro r hr hrq
  obtain ⟨n, hn, hr⟩ := List.mem_flatMap.mp hr
  -- both stand in `t`, so their names are plain and the qualified names give the paths away
  have hplain : ∀ {x : Occurrence}, x ∈ t.occurrences outer →
      ∀ n ∈ x.path ++ [x.name], IsPlainName n := plain_of_mem_occurrences houter ht
  have hpath := (path_eq_of_qualifiedName_eq
    (hplain (TypeDecl.mem_occurrences.mpr (.inl ⟨m, hm, rfl⟩)))
    (hplain (TypeDecl.mem_occurrences.mpr (.inr ⟨n, hn, hr⟩)))
    ((beq_iff_eq.mp hoq).trans (beq_iff_eq.mp hrq).symm)).1
  -- but the path of `r` goes on to the nested type `n`
  obtain ⟨inner, hinner, -⟩ := n.exists_path_of_mem_occurrences hr
  have hlength := congrArg List.length (hpath.trans hinner)
  simp at hlength

/-- **In one type.** The verdicts of one qualified name are those on its callables of that name, in
    document order. -/
theorem filter_verdictsUnder (q : String) (t : TypeDecl) :
    ∀ {outer : List String}, (∀ n ∈ outer, IsPlainName n) →
      (∀ n ∈ t.declaredNames, IsPlainName n) →
      (t.verdictsUnder (".".intercalate (outer ++ [t.name]))).filter (·.qualifiedName == q) =
        ((t.occurrences outer).filter (·.qualifiedName == q)).map Occurrence.verdict := by
  induction t using TypeDecl.nested_induction with
  | step t ih =>
      intro outer houter ht
      have houter' : ∀ n ∈ outer ++ [t.name], IsPlainName n := by
        intro n hn
        rcases List.mem_append.mp hn with hn | hn
        · exact houter n hn
        · obtain rfl := List.mem_singleton.mp hn
          exact ht _ t.name_mem_declaredNames
      have hfilter : ∀ l : List Occurrence, (∀ o ∈ l, o.path ≠ []) →
          (l.map Occurrence.verdict).filter (·.qualifiedName == q) =
            (l.filter (·.qualifiedName == q)).map Occurrence.verdict := by
        intro l hl
        rw [List.filter_map]
        congr 1
        exact List.filter_congr fun o ho => by
          rw [Function.comp_apply, Occurrence.qualifiedName_verdict (hl o ho)]
      -- the callables of `t` itself
      have hown : (t.ownVerdicts (".".intercalate (outer ++ [t.name]))).filter
            (·.qualifiedName == q) =
          ((t.members.flatMap (Member.ownOccurrences (outer ++ [t.name]) t)).filter
            (·.qualifiedName == q)).map Occurrence.verdict := by
        rw [Member.flatMap_ownOccurrences, ← hfilter]
        · rw [List.map_map]
          rfl
        · intro o ho
          obtain ⟨m, -, rfl⟩ := List.mem_map.mp ho
          simp
      -- those of the types nested in it, by induction
      have hinner : (t.nested.flatMap fun n => n.verdictsUnder
              (".".intercalate (outer ++ [t.name]) ++ "." ++ n.name)).filter
            (·.qualifiedName == q) =
          ((t.members.flatMap (Member.innerOccurrences (outer ++ [t.name]))).filter
            (·.qualifiedName == q)).map Occurrence.verdict := by
        rw [Member.flatMap_innerOccurrences, List.filter_flatMap, List.filter_flatMap,
          List.map_flatMap]
        refine List.flatMap_congr fun n hn => ?_
        have hn' : ∀ x ∈ n.declaredNames, IsPlainName x := fun x hx =>
          ht x (Member.mem_declaredNames (TypeDecl.mem_nested.mp hn) hx)
        have hne : outer ++ [t.name] ≠ [] := by simp
        rw [← ih n hn houter' hn', intercalate_dot_concat hne]
      -- in the document both are interleaved, but one of them is gone after the filter
      have hsplit : t.occurrences outer = t.members.flatMap fun m =>
          m.ownOccurrences (outer ++ [t.name]) t ++ m.innerOccurrences (outer ++ [t.name]) := by
        rw [TypeDecl.occurrences_eq]
        exact List.flatMap_congr fun m _ => Member.occurrences_eq _ _ _
      rw [TypeDecl.verdictsUnder_eq, List.filter_append, hown, hinner, ← List.map_append, hsplit,
        filter_flatMap_append (own_or_inner_filter_eq_nil houter ht q)]

/-- **In a source.** The verdicts of one qualified name are those on the callables of that name, in
    document order. -/
theorem filter_verdicts {types : List TypeDecl} (hplain : HasPlainNames types) (q : String) :
    (verdicts types).filter (·.qualifiedName == q) =
      ((occurrences types).filter (·.qualifiedName == q)).map Occurrence.verdict := by
  rw [verdicts, occurrences, List.filter_flatMap, List.filter_flatMap, List.map_flatMap]
  refine List.flatMap_congr fun t ht => ?_
  have htop : ".".intercalate ([] ++ [t.name]) = t.name := by
    rw [List.nil_append, String.intercalate_singleton]
  have hnil : ∀ n ∈ ([] : List String), IsPlainName n := by simp
  rw [← filter_verdictsUnder q t hnil (hplain t ht), htop]

theorem findVerdict?_verdicts {types : List TypeDecl} (hplain : HasPlainNames types) (q : String) :
    findVerdict? (verdicts types) q =
      ((occurrences types).find? (·.qualifiedName == q)).map Occurrence.verdict := by
  rw [findVerdict?, ← List.head?_filter, filter_verdicts hplain, List.head?_map, List.head?_filter]

theorem findVerdict_eq_ok_iff {types : List TypeDecl} (hplain : HasPlainNames types) {q : String}
    {v : Verdict} :
    Scan.findVerdict (verdicts types) q = .ok v ↔
      ∃ before o after, occurrences types = before ++ o :: after ∧ o.qualifiedName = q ∧
        (∀ r ∈ before, r.qualifiedName ≠ q) ∧ v = o.verdict := by
  have hok : Scan.findVerdict (verdicts types) q = .ok v ↔
      ∃ o, (occurrences types).find? (·.qualifiedName == q) = some o ∧ o.verdict = v := by
    rw [← Option.map_eq_some_iff, ← findVerdict?_verdicts hplain, Scan.findVerdict]
    cases findVerdict? (verdicts types) q <;> simp
  rw [hok]
  constructor
  · rintro ⟨o, ho, rfl⟩
    obtain ⟨hq, before, after, hsplit, hbefore⟩ := List.find?_eq_some_iff_append.mp ho
    exact ⟨before, o, after, hsplit, beq_iff_eq.mp hq, fun r hr => by simpa using hbefore r hr, rfl⟩
  · rintro ⟨before, o, after, hsplit, hq, hbefore, rfl⟩
    refine ⟨o, List.find?_eq_some_iff_append.mpr ⟨beq_iff_eq.mpr hq, before, after, hsplit, ?_⟩, rfl⟩
    exact fun r hr => by simpa using hbefore r hr

theorem findVerdict_eq_notFound_iff {types : List TypeDecl} (hplain : HasPlainNames types)
    {q : String} :
    Scan.findVerdict (verdicts types) q = .error (.notFound q) ↔
      ∀ o ∈ occurrences types, o.qualifiedName ≠ q := by
  have hnone : Scan.findVerdict (verdicts types) q = .error (.notFound q) ↔
      (occurrences types).find? (·.qualifiedName == q) = none := by
    rw [← Option.map_eq_none_iff (f := Occurrence.verdict), ← findVerdict?_verdicts hplain,
      Scan.findVerdict]
    cases findVerdict? (verdicts types) q <;> simp
  rw [hnone, List.find?_eq_none]
  exact forall₂_congr fun o _ => by rw [beq_iff_eq]

theorem path_eq_of_mem_occurrences {types : List TypeDecl} (hplain : HasPlainNames types)
    {o r : Occurrence} (ho : o ∈ occurrences types) (hr : r ∈ occurrences types)
    (h : o.qualifiedName = r.qualifiedName) : o.path = r.path ∧ o.name = r.name := by
  obtain ⟨t, ht, ho⟩ := List.mem_flatMap.mp ho
  obtain ⟨u, hu, hr⟩ := List.mem_flatMap.mp hr
  have hnil : ∀ n ∈ ([] : List String), IsPlainName n := by simp
  exact path_eq_of_qualifiedName_eq (plain_of_mem_occurrences hnil (hplain t ht) ho)
    (plain_of_mem_occurrences hnil (hplain u hu) hr) h

/-- **Looking up finds the first declaration.** A look-up by qualified name gives the verdict on the
    first callable of that name in document order, it fails exactly if there is none, and callables of
    one qualified name agree in their own name and in those of all types around them. Names must be
    plain for this; those that a source declares are. -/
theorem findVerdict_first_declared :
    (∀ types, HasPlainNames types → ∀ q,
      (∀ v, Scan.findVerdict (verdicts types) q = .ok v ↔
        ∃ before o after, occurrences types = before ++ o :: after ∧ o.qualifiedName = q ∧
          (∀ r ∈ before, r.qualifiedName ≠ q) ∧ v = o.verdict) ∧
      (Scan.findVerdict (verdicts types) q = .error (.notFound q) ↔
        ∀ o ∈ occurrences types, o.qualifiedName ≠ q) ∧
      (∀ o ∈ occurrences types, ∀ r ∈ occurrences types,
        o.qualifiedName = r.qualifiedName → o.path = r.path ∧ o.name = r.name)) ∧
    ∀ source, HasPlainNames (SourceModel.ofSource source).types := by
  refine ⟨fun types hplain q => ⟨fun v => ?_, ?_, fun o ho r hr h => ?_⟩, fun source => ?_⟩
  · exact findVerdict_eq_ok_iff hplain
  · exact findVerdict_eq_notFound_iff hplain
  · exact path_eq_of_mem_occurrences hplain ho hr h
  · exact SourceModel.hasPlainNames source

/-- Two types `A` in which methods `m` stand around and in two types `B`. -/
def redeclared : List TypeDecl :=
  let m (line : Nat) : Member := .method ⟨"m", [], .void, [], some [], line⟩
  [⟨"A", .ordinary, 1, [.type ⟨"B", .ordinary, 2, [m 3]⟩, m 4, .type ⟨"B", .ordinary, 5, [m 6]⟩]⟩,
    ⟨"A", .ordinary, 7, [m 8]⟩]

/-- The verdicts list line 4 before line 3, and `A.B.m` is found on line 3 all the same. -/
theorem findVerdict_redeclared :
    HasPlainNames redeclared ∧
    Scan.findVerdict (verdicts redeclared) "A.B.m" = .ok ⟨"A.B", "m", 3, false, none⟩ ∧
    Scan.findVerdict (verdicts redeclared) "A.m" = .ok ⟨"A", "m", 4, false, none⟩ ∧
    Scan.findVerdict (verdicts redeclared) "B.m" = .error (.notFound "B.m") := by
  have hplain : HasPlainNames redeclared := by decide
  have hfirst := findVerdict_first_declared.1 redeclared hplain
  refine ⟨hplain, ?_, ?_, ?_⟩
  · exact ((hfirst "A.B.m").1 _).mpr ⟨[], _, _, rfl, by decide, by simp, by decide⟩
  · exact ((hfirst "A.m").1 _).mpr ⟨[_], _, _, rfl, by decide, by decide, by decide⟩
  · exact (hfirst "B.m").2.1.mpr (by decide)

end AccessorScan
