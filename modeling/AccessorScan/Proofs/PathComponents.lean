import AccessorScan.Files.System

/-!
# `Proofs.PathComponents` — the components of paths

The components of a path are those of its segments, the texts between its slashes. A name that is joined to a
path is one more component, and the parent of a path has all of its components but the last one.

## Contents
- `PathComponent.ofSegments`, `FilePath.components_eq`: components from segments.
- `FilePath.IsEntryName`, `components_join`: a name joined to a path.
- `FilePath.located_take`, `parent?_cases`, `components_parent?`: the parent of a path.
- `FilePath.above?`, `getElem?_ancestors`, `take_ancestors`: the ancestors of a path by their level.
- `FilePath.components_of_ancestors`: what the components of a path have more than those above it.
-/

namespace AccessorScan

namespace PathComponent

/-- The components for the segments of a path; `first` tells whether they start a relative path. -/
def ofSegments (first : Bool) : List (List Char) → List PathComponent
  | [] => []
  | s :: rest => (ofSegment? first s).toList ++ ofSegments false rest

theorem ofSegments_append (first : Bool) {before : List (List Char)} (hbefore : before ≠ [])
    (after : List (List Char)) :
    ofSegments first (before ++ after) = ofSegments first before ++ ofSegments false after := by
  induction before generalizing first with
  | nil => exact absurd rfl hbefore
  | cons s rest ih =>
      cases rest with
      | nil => simp [ofSegments]
      | cons r rest =>
          have hrest := ih false (List.cons_ne_nil r rest)
          show (ofSegment? first s).toList ++ ofSegments false (r :: rest ++ after) =
            ((ofSegment? first s).toList ++ ofSegments false (r :: rest)) ++ ofSegments false after
          rw [hrest, List.append_assoc]

end PathComponent

namespace FilePath

/-! ## Segments -/

theorem map_fst_finish (start : Nat) (segment : List Char) :
    (located.finish start segment).map (·.1) =
      (PathComponent.ofSegment? (start == 0) segment.reverse).toList := by
  unfold located.finish
  cases PathComponent.ofSegment? (start == 0) segment.reverse <;> rfl

theorem map_fst_located (start : Nat) (segment cs : List Char) :
    (located start segment cs).map (·.1) =
      PathComponent.ofSegments (start == 0) (List.splitOnPPrepend (· == '/') cs segment) := by
  induction cs generalizing start segment with
  | nil =>
      rw [located, map_fst_finish, List.splitOnPPrepend_nil, PathComponent.ofSegments,
        PathComponent.ofSegments, List.append_nil]
  | cons c rest ih =>
      rw [located]
      split
      case isTrue hslash =>
        rw [List.map_append, map_fst_finish, ih,
          List.splitOnPPrepend_cons_pos (by simpa using hslash), List.splitOnPPrepend_nil_right]
        rfl
      case isFalse hslash =>
        rw [ih, List.splitOnPPrepend_cons_neg (by simpa using hslash)]

theorem isAbsolute_iff {p : FilePath} : p.isAbsolute = true ↔ ∃ rest, p.text.toList = '/' :: rest := by
  rw [isAbsolute]
  cases p.text.toList <;> simp

/-- The characters of a path without the slash for the root. -/
def afterRoot (p : FilePath) : List Char :=
  if p.isAbsolute then p.text.toList.drop 1 else p.text.toList

/-- The root, if the path is absolute, and the components of the segments after it. -/
theorem components_eq (p : FilePath) :
    p.components = (if p.isAbsolute then [.root] else []) ++
      PathComponent.ofSegments (!p.isAbsolute) (p.afterRoot.splitOn '/') := by
  unfold components locatedComponents afterRoot
  cases p.isAbsolute with
  | true =>
      simp only [if_true, List.map_cons, map_fst_located]
      rfl
  | false =>
      simp only [Bool.false_eq_true, if_false, map_fst_located]
      rfl

/-- A text that names an entry of a directory. -/
structure IsEntryName (name : String) : Prop where
  noSlash : '/' ∉ name.toList
  nonempty : name ≠ ""
  notHere : name ≠ "."
  notUp : name ≠ ".."

instance (name : String) : Decidable (IsEntryName name) :=
  decidable_of_iff ('/' ∉ name.toList ∧ name ≠ "" ∧ name ≠ "." ∧ name ≠ "..")
    ⟨fun ⟨hslash, hempty, hhere, hup⟩ => ⟨hslash, hempty, hhere, hup⟩,
      fun h => ⟨h.noSlash, h.nonempty, h.notHere, h.notUp⟩⟩

namespace IsEntryName

variable {name : String}

theorem ofSegment? (h : IsEntryName name) (first : Bool) :
    PathComponent.ofSegment? first name.toList = some (.name name) := by
  have hne : ∀ s : String, name ≠ s → name.toList ≠ s.toList := fun s hs heq =>
    hs (String.toList_injective heq)
  unfold PathComponent.ofSegment?
  split
  case h_1 heq => exact absurd heq (hne "" h.nonempty)
  case h_2 heq => exact absurd heq (hne "." h.notHere)
  case h_3 heq => exact absurd heq (hne ".." h.notUp)
  case h_4 => rw [String.ofList_toList]

theorem not_isAbsolute (h : IsEntryName name) : (FilePath.mk name).isAbsolute = false := by
  cases habsolute : (FilePath.mk name).isAbsolute with
  | false => rfl
  | true =>
      obtain ⟨rest, hrest⟩ := isAbsolute_iff.mp habsolute
      exact absurd (hrest ▸ List.mem_cons_self) h.noSlash

end IsEntryName

/-- The name behind some characters, with a slash between if they do not end in one. -/
def joinedChars (cs : List Char) (name : String) : List Char :=
  if cs = [] ∨ cs.getLast? = some '/' then cs ++ name.toList else cs ++ '/' :: name.toList

theorem joinedChars_slash (cs : List Char) (name : String) :
    joinedChars ('/' :: cs) name = '/' :: joinedChars cs name := by
  unfold joinedChars
  cases cs with
  | nil => rfl
  | cons c cs =>
      simp only [List.cons_ne_nil, false_or, List.getLast?_cons_cons]
      split <;> rfl

theorem toList_join (p : FilePath) {name : String} (hname : IsEntryName name) :
    (p.join ⟨name⟩).text.toList = joinedChars p.text.toList name := by
  unfold join joinedChars
  rw [if_neg (by simp [hname.not_isAbsolute])]
  simp only [Bool.or_eq_true, beq_iff_eq, String.isEmpty_iff, ← String.toList_eq_nil_iff]
  split <;> simp

/-- Behind the segments of a path a name is one more; an empty last segment makes room for it. -/
theorem ofSegments_joinedChars (first : Bool) (cs : List Char) {name : String}
    (hname : IsEntryName name) :
    PathComponent.ofSegments first ((joinedChars cs name).splitOn '/') =
      PathComponent.ofSegments first (cs.splitOn '/') ++ [.name name] := by
  have hlast : ∀ b, PathComponent.ofSegments b [name.toList] = [.name name] := fun b => by
    simp [PathComponent.ofSegments, hname.ofSegment?]
  have hempty : ∀ b, PathComponent.ofSegments b [[]] = [] := fun b => rfl
  have hsplit : name.toList.splitOn '/' = [name.toList] := List.splitOn_eq_singleton hname.noSlash
  have hne : ∀ as : List Char, as.splitOn '/' ≠ [] := List.splitOn_ne_nil '/'
  unfold joinedChars
  split
  case isTrue h =>
    obtain rfl | hslash := h
    · rw [List.nil_append, hsplit, hlast, List.splitOn_nil, hempty, List.nil_append]
    · obtain ⟨u, rfl⟩ := List.getLast?_eq_some_iff.mp hslash
      rw [List.append_assoc, List.singleton_append, List.splitOn_append_cons_self,
        List.splitOn_append_cons_self, hsplit, List.splitOn_nil,
        PathComponent.ofSegments_append _ (hne u), PathComponent.ofSegments_append _ (hne u), hlast,
        hempty, List.append_nil]
  case isFalse h =>
    rw [List.splitOn_append_cons_self, hsplit, PathComponent.ofSegments_append _ (hne cs), hlast]

theorem components_join (p : FilePath) {name : String} (hname : IsEntryName name) :
    (p.join ⟨name⟩).components = p.components ++ [.name name] := by
  have htext := toList_join p hname
  cases habsolute : p.isAbsolute with
  | true =>
      obtain ⟨rest, hrest⟩ := isAbsolute_iff.mp habsolute
      rw [hrest, joinedChars_slash] at htext
      have hjoined : (p.join ⟨name⟩).isAbsolute = true := isAbsolute_iff.mpr ⟨_, htext⟩
      simp only [components_eq, afterRoot, hjoined, habsolute, htext, hrest, if_true,
        List.drop_succ_cons, List.drop_zero, ofSegments_joinedChars _ _ hname, List.append_assoc]
  | false =>
      have hjoined : (p.join ⟨name⟩).isAbsolute = false := by
        rw [isAbsolute] at habsolute ⊢
        rw [htext]
        cases hcs : p.text.toList with
        | nil => exact hname.not_isAbsolute
        | cons c cs =>
            rw [hcs] at habsolute
            unfold joinedChars
            split <;> exact habsolute
      simp only [components_eq, afterRoot, hjoined, habsolute, htext, Bool.false_eq_true, if_false,
        ofSegments_joinedChars _ _ hname, List.append_assoc]

/-! ## Parents -/

theorem size_of_mem_finish {start : Nat} {segment : List Char} {e : PathComponent × Nat}
    (h : e ∈ located.finish start segment) : e.2 = start + segment.length := by
  unfold located.finish at h
  split at h
  · rw [List.mem_singleton.mp h]
  · cases h

theorem size_le_of_mem_located {start : Nat} {segment cs : List Char} {e : PathComponent × Nat}
    (h : e ∈ located start segment cs) : start + segment.length ≤ e.2 := by
  induction cs generalizing start segment with
  | nil => exact Nat.le_of_eq (size_of_mem_finish h).symm
  | cons c rest ih =>
      rw [located] at h
      split at h
      · obtain h | h := List.mem_append.mp h
        · exact Nat.le_of_eq (size_of_mem_finish h).symm
        · have hrest := ih h
          simp only [List.length_nil] at hrest
          omega
      · have hrest := ih h
        simp only [List.length_cons] at hrest
        omega

/-- The characters up to the end of a segment have the component of this segment at most. -/
theorem located_take_finish {start : Nat} {segment : List Char} (cs : List Char)
    {before after : List (PathComponent × Nat)} {e : PathComponent × Nat}
    (h : located.finish start segment = before ++ e :: after) :
    located start segment (cs.take (e.2 - (start + segment.length))) = before ++ [e] := by
  have hsize : e.2 = start + segment.length := size_of_mem_finish (by rw [h]; simp)
  have hafter : after = [] := by
    unfold located.finish at h
    split at h <;> cases before <;> simp_all
  rw [hsize, Nat.sub_self, List.take_zero, located, h, hafter]

/-- The characters up to the end of a component have the components up to this one. -/
theorem located_take {start : Nat} {segment cs : List Char}
    {before after : List (PathComponent × Nat)} {e : PathComponent × Nat}
    (h : located start segment cs = before ++ e :: after) :
    located start segment (cs.take (e.2 - (start + segment.length))) = before ++ [e] := by
  induction cs generalizing start segment before with
  | nil => exact located_take_finish [] h
  | cons c rest ih =>
      have hmem : e ∈ located start segment (c :: rest) := by rw [h]; simp
      rw [located] at h hmem
      split at h
      case isTrue hslash =>
        -- The component ends here or in one of the later segments.
        have hlater : ∀ {others}, before = located.finish start segment ++ others →
            located (start + segment.length + 1) [] rest = others ++ e :: after →
            located start segment ((c :: rest).take (e.2 - (start + segment.length))) =
              before ++ [e] := by
          intro others hbefore hothers
          have hsize := size_le_of_mem_located (by rw [hothers]; simp : e ∈ _)
          have hrest := ih hothers
          simp only [List.length_nil, Nat.add_zero] at hsize hrest
          obtain ⟨n, hn⟩ : ∃ n, e.2 - (start + segment.length) = n + 1 :=
            ⟨e.2 - (start + segment.length + 1), by omega⟩
          rw [hn, List.take_succ_cons, located, if_pos hslash, hbefore,
            show n = e.2 - (start + segment.length + 1) by omega, hrest, List.append_assoc]
        obtain ⟨others, hbefore, hothers⟩ | ⟨others, hfinish, hothers⟩ :=
          List.append_eq_append_iff.mp h
        · exact hlater hbefore hothers
        · cases others with
          | nil =>
              rw [List.append_nil] at hfinish
              exact hlater (show before = _ ++ [] by rw [hfinish, List.append_nil])
                (show located _ _ _ = [] ++ e :: after from hothers.symm)
          | cons f others =>
              obtain ⟨rfl, -⟩ := List.cons.inj hothers
              exact located_take_finish (c :: rest) hfinish
      case isFalse hslash =>
        have hsize := size_le_of_mem_located (by rw [h]; simp : e ∈ _)
        have hrest := ih h
        simp only [List.length_cons] at hsize hrest
        obtain ⟨n, hn⟩ : ∃ n, e.2 - (start + segment.length) = n + 1 :=
          ⟨e.2 - (start + (segment.length + 1)), by omega⟩
        rw [hn, List.take_succ_cons, located, if_neg hslash,
          show n = e.2 - (start + (segment.length + 1)) by omega, hrest]

theorem locatedComponents_absolute {p : FilePath} {rest : List Char}
    (h : p.text.toList = '/' :: rest) :
    p.locatedComponents = (.root, 1) :: located 1 [] rest := by
  rw [locatedComponents, if_pos (isAbsolute_iff.mpr ⟨rest, h⟩), h]
  rfl

theorem locatedComponents_relative {p : FilePath} (h : p.isAbsolute = false) :
    p.locatedComponents = located 0 [] p.text.toList := by
  rw [locatedComponents, h]
  rfl

/-- A path up to the end of one of its components. -/
theorem locatedComponents_take {p : FilePath} {before after : List (PathComponent × Nat)}
    {e : PathComponent × Nat} (h : p.locatedComponents = before ++ e :: after) :
    (FilePath.mk (String.ofList (p.text.toList.take e.2))).locatedComponents = before ++ [e] := by
  cases habsolute : p.isAbsolute with
  | true =>
      obtain ⟨rest, hrest⟩ := isAbsolute_iff.mp habsolute
      rw [locatedComponents_absolute hrest] at h
      cases before with
      | nil =>
          obtain ⟨rfl, -⟩ := List.cons.inj h
          have htext : (String.ofList (p.text.toList.take 1)).toList = '/' :: [] := by
            rw [String.toList_ofList, hrest]
            rfl
          exact locatedComponents_absolute htext
      | cons first before =>
          obtain ⟨rfl, hlater⟩ := List.cons.inj h
          replace hlater : located 1 [] rest = before ++ e :: after := hlater
          have hsize := size_le_of_mem_located (by rw [hlater]; simp : e ∈ _)
          have htake := located_take hlater
          simp only [List.length_nil, Nat.add_zero] at hsize htake
          have htext : (p.text.toList.take e.2) = '/' :: rest.take (e.2 - 1) := by
            rw [hrest, ← List.take_succ_cons, Nat.sub_add_cancel hsize]
          rw [locatedComponents_absolute (by rw [String.toList_ofList, htext]), htake]
          rfl
  | false =>
      rw [locatedComponents_relative habsolute] at h
      have htake := located_take h
      have hrelative :
          (FilePath.mk (String.ofList (p.text.toList.take e.2))).isAbsolute = false := by
        rw [isAbsolute] at habsolute ⊢
        rw [String.toList_ofList, List.head?_take]
        split
        · rfl
        · exact habsolute
      rw [locatedComponents_relative hrelative, String.toList_ofList]
      simpa using htake

/-- **One step up** takes the last component off, and there is none if that is the root or missing. -/
theorem parent?_cases (p : FilePath) :
    (p.parent? = none ∧ ∀ c, p.components.getLast? = some c → c = .root) ∨
      ∃ q last, p.parent? = some q ∧ last ≠ .root ∧ p.components = q.components ++ [last] := by
  unfold parent?
  split
  case h_1 hends =>
    refine .inl ⟨rfl, ?_⟩
    rw [components, List.reverse_eq_nil_iff.mp hends]
    exact nofun
  case h_2 size before hends =>
    refine .inl ⟨rfl, fun c hc => ?_⟩
    rw [components, List.reverse_eq_cons_iff.mp hends] at hc
    simpa using hc.symm
  case h_3 e hroot hsingle =>
    rw [List.reverse_eq_iff] at hsingle
    exact .inr ⟨_, e.1, rfl, fun he => hroot e.2 (Prod.ext he rfl), by rw [components, hsingle]; rfl⟩
  case h_4 last c size before hroot hends =>
    have hlocated : p.locatedComponents = before.reverse ++ (c, size) :: [last] := by
      rw [← List.reverse_reverse p.locatedComponents, hends]
      simp
    refine .inr ⟨_, last.1, rfl, fun he => hroot last.2 (Prod.ext he rfl), ?_⟩
    simp only [components, locatedComponents_take hlocated, hlocated]
    simp

/-- **The parent of a path** has all of its components but the last one, which is not the root. -/
theorem components_parent? {p q : FilePath} (h : p.parent? = some q) :
    ∃ last, last ≠ .root ∧ p.components = q.components ++ [last] := by
  obtain ⟨hnone, -⟩ | ⟨q', last, hq, hlast, hp⟩ := parent?_cases p
  · rw [hnone] at h
    cases h
  · obtain rfl := Option.some.inj (hq.symm.trans h)
    exact ⟨last, hlast, hp⟩

/-! ## Ancestors -/

/-- The path so many levels above a path, the path itself at level 0. -/
def above? (p : FilePath) : Nat → Option FilePath
  | 0 => some p
  | level + 1 => p.parent?.bind fun q => q.above? level

theorem getElem?_ancestors (p : FilePath) (depth level : Nat) :
    (p.ancestors depth)[level]? = if level < depth then p.above? level else none := by
  induction depth generalizing p level with
  | zero => simp [ancestors]
  | succ depth ih =>
      cases level with
      | zero => simp [ancestors, above?]
      | succ level =>
          rw [ancestors, List.getElem?_cons_succ, above?]
          cases p.parent? with
          | none => simp
          | some q => simp [ih]

/-- The first ancestors do not depend on how many are taken. -/
theorem take_ancestors (p : FilePath) {level depth : Nat} (h : level ≤ depth) :
    (p.ancestors depth).take level = p.ancestors level := by
  refine List.ext_getElem? fun n => ?_
  rw [List.getElem?_take, getElem?_ancestors, getElem?_ancestors]
  by_cases hn : n < level
  · rw [if_pos hn, if_pos hn, if_pos (Nat.lt_of_lt_of_le hn h)]
  · rw [if_neg hn, if_neg hn]

theorem ancestors_eq_append (p : FilePath) {d : FilePath} {level depth : Nat}
    (hlevel : level < depth) (hd : p.above? level = some d) :
    ∃ after, p.ancestors depth = p.ancestors level ++ d :: after := by
  have hget : (p.ancestors depth)[level]? = some d := by
    rw [getElem?_ancestors, if_pos hlevel, hd]
  obtain ⟨hlength, hd2⟩ := List.getElem?_eq_some_iff.mp hget
  refine ⟨(p.ancestors depth).drop (level + 1), ?_⟩
  rw [← take_ancestors p (Nat.le_of_lt hlevel), ← hd2, ← List.drop_eq_getElem_cons hlength,
    List.take_append_drop]

end FilePath

end AccessorScan
