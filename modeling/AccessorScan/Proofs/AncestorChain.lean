import AccessorScan.Proofs.PathComponents
import Mathlib.Data.List.Chain

/-!
# `Proofs.AncestorChain` — the chain of ancestors of a path

Each step up takes the last component off a path, and there is one as long as a component is left that is
not the root. The components therefore count the steps, however the path is spelled: the chain of ancestors
is cut at its depth or goes on to the root or to the empty path, where no step is left.

## Contents
- `FilePath.levels`, `components_split`: the components other than the root, which all stand behind it.
- `levels_of_parent?`, `parent?_eq_none_iff`: what one step does, and when there is one.
- `components_top`: where no step is left.
- `length_ancestors`, `isChain_ancestors`, `getLast?_ancestors`: a run of steps.
- `ancestors_complete`.
-/

namespace AccessorScan

namespace PathComponent

theorem ofSegment?_ne_root (first : Bool) (segment : List Char) : ofSegment? first segment ≠ some .root := by
  unfold ofSegment?
  split
  case h_1 => exact nofun
  case h_2 => cases first <;> exact nofun
  case h_3 => exact nofun
  case h_4 => exact nofun

theorem root_not_mem_ofSegments (first : Bool) (segments : List (List Char)) :
    .root ∉ ofSegments first segments := by
  induction segments generalizing first with
  | nil => exact List.not_mem_nil
  | cons s rest ih =>
      rw [ofSegments, List.mem_append, not_or]
      refine ⟨fun hroot => ?_, ih false⟩
      exact ofSegment?_ne_root first s (Option.mem_toList.mp hroot)

/-- The first segment of a relative path makes a component unless it is empty. -/
theorem ofSegment?_true_isSome {segment : List Char} (h : segment ≠ []) :
    (ofSegment? true segment).isSome = true := by
  unfold ofSegment?
  split
  case h_1 => exact absurd rfl h
  case h_2 => rfl
  case h_3 => rfl
  case h_4 => rfl

end PathComponent

namespace FilePath

variable {p q : FilePath}

/-! ## Components other than the root -/

/-- How many components of a path are not the root. -/
def levels (p : FilePath) : Nat := p.components.countP (· ≠ .root)

/-- The root comes first if at all. -/
theorem components_split (p : FilePath) :
    ∃ rest, .root ∉ rest ∧ rest.length = p.levels ∧
      p.components = (if p.isAbsolute then [.root] else []) ++ rest := by
  let rest := PathComponent.ofSegments (!p.isAbsolute) (p.afterRoot.splitOn '/')
  have hroot : .root ∉ rest := PathComponent.root_not_mem_ofSegments _ _
  have hcount : rest.countP (· ≠ .root) = rest.length :=
    List.countP_eq_length.mpr fun c hc => decide_eq_true (ne_of_mem_of_not_mem hc hroot)
  refine ⟨rest, hroot, ?_, components_eq p⟩
  rw [levels, components_eq, List.countP_append, hcount]
  cases p.isAbsolute <;> simp

theorem isAbsolute_iff_root_mem : p.isAbsolute = true ↔ .root ∈ p.components := by
  obtain ⟨rest, hrest, -, hp⟩ := components_split p
  rw [hp]
  cases p.isAbsolute with
  | true => simp
  | false => simpa using hrest

/-- Only the empty path has no components at all. -/
theorem eq_empty_of_components (h : p.components = []) : p = ⟨""⟩ := by
  have hrelative : p.isAbsolute = false :=
    Bool.eq_false_iff.mpr fun habsolute => by simpa [h] using isAbsolute_iff_root_mem.mp habsolute
  rw [components_eq, afterRoot, hrelative] at h
  obtain ⟨text⟩ := p
  cases htext : text.toList with
  | nil => rw [String.toList_eq_nil_iff.mp htext]
  | cons c cs =>
      -- The first segment starts with this character, as that is no slash.
      have hslash : c ≠ '/' := by
        rintro rfl
        rw [isAbsolute_iff.mpr ⟨cs, htext⟩] at hrelative
        cases hrelative
      obtain ⟨s, rest, hsplit⟩ := List.exists_cons_of_ne_nil (List.splitOn_ne_nil '/' cs)
      have hsegments : (c :: cs).splitOn '/' = (c :: s) :: rest := by
        rw [List.splitOn_cons_eq_if_modifyHead, hsplit]
        simp [hslash]
      have hfirst := PathComponent.ofSegment?_true_isSome (List.cons_ne_nil c s)
      simp only [Bool.false_eq_true, if_false, htext, hsegments, Bool.not_false, List.nil_append,
        PathComponent.ofSegments, List.append_eq_nil_iff, Option.toList_eq_nil_iff] at h
      rw [h.1] at hfirst
      cases hfirst

/-! ## One step -/

theorem levels_of_parent? (h : p.parent? = some q) : p.levels = q.levels + 1 := by
  obtain ⟨last, hlast, hp⟩ := components_parent? h
  rw [levels, hp, List.countP_append, List.countP_singleton, if_pos (decide_eq_true hlast)]
  rfl

/-- There is a step up as long as a component is left that is not the root. -/
theorem parent?_eq_none_iff : p.parent? = none ↔ p.levels = 0 := by
  obtain ⟨hnone, htop⟩ | ⟨q, -, hq, -, -⟩ := parent?_cases p
  · obtain ⟨rest, hroot, hlength, hp⟩ := components_split p
    have hrest : rest = [] := by
      by_contra hne
      have hlast : rest.getLast hne = .root := by
        apply htop
        rw [hp, List.getLast?_append_of_ne_nil _ hne, List.getLast?_eq_some_getLast hne]
      exact hroot (hlast ▸ List.getLast_mem hne)
    rw [← hlength, hrest]
    exact iff_of_true hnone rfl
  · rw [hq, levels_of_parent? hq]
    exact iff_of_false nofun (Nat.succ_ne_zero _)

theorem isAbsolute_of_parent? (h : p.parent? = some q) : p.isAbsolute = q.isAbsolute := by
  obtain ⟨last, hlast, hp⟩ := components_parent? h
  rw [Bool.eq_iff_iff, isAbsolute_iff_root_mem, isAbsolute_iff_root_mem, hp, List.mem_append,
    List.mem_singleton]
  exact or_iff_left hlast.symm

/-- **Where no step is left** stands the root or the empty path. -/
theorem components_top (h : p.levels = 0) : if p.isAbsolute then p.components = [.root] else p = ⟨""⟩ := by
  obtain ⟨rest, -, hlength, hp⟩ := components_split p
  rw [h, List.length_eq_zero_iff] at hlength
  rw [hlength, List.append_nil] at hp
  split
  case isTrue habsolute => rw [hp, if_pos habsolute]
  case isFalse habsolute =>
    rw [if_neg habsolute] at hp
    exact eq_empty_of_components hp

/-! ## A run of steps -/

theorem length_ancestors (p : FilePath) (depth : Nat) :
    (p.ancestors depth).length = min depth (p.levels + 1) := by
  induction depth generalizing p with
  | zero => simp [ancestors]
  | succ depth ih =>
      rw [ancestors, List.length_cons]
      cases hparent : p.parent? with
      | none =>
          have hlevels := parent?_eq_none_iff.mp hparent
          simp only [List.length_nil]
          omega
      | some q =>
          have hlevels := levels_of_parent? hparent
          simp only [ih q]
          omega

theorem isChain_ancestors (p : FilePath) (depth : Nat) :
    (p.ancestors depth).IsChain fun a b => a.parent? = some b := by
  induction depth generalizing p with
  | zero => exact .nil
  | succ depth ih =>
      rw [ancestors]
      cases hparent : p.parent? with
      | none => exact .singleton p
      | some q =>
          refine List.isChain_cons.mpr ⟨fun b hb => ?_, ih q⟩
          cases depth with
          | zero => cases hb
          | succ depth =>
              cases hb
              exact hparent

/-- The components grow fewer with each step, so no two ancestors are the same path. -/
theorem pairwise_ancestors (p : FilePath) (depth : Nat) :
    (p.ancestors depth).Pairwise fun a b => a.components ≠ b.components := by
  have hfewer : ((p.ancestors depth).map levels).IsChain (· > ·) := by
    rw [List.isChain_map]
    refine (isChain_ancestors p depth).imp fun a b h => ?_
    rw [levels_of_parent? h]
    exact Nat.lt_succ_self _
  refine (List.pairwise_map.mp hfewer.pairwise).imp fun {a b} h heq => ?_
  rw [levels, levels, heq] at h
  exact Nat.lt_irrefl _ h

/-- A chain that is not cut ends where no step is left. -/
theorem getLast?_ancestors {depth : Nat} (h : p.levels < depth) :
    ∃ last, (p.ancestors depth).getLast? = some last ∧ last.levels = 0 ∧
      last.isAbsolute = p.isAbsolute := by
  induction depth generalizing p with
  | zero => cases h
  | succ depth ih =>
      rw [ancestors]
      cases hparent : p.parent? with
      | none => exact ⟨p, rfl, parent?_eq_none_iff.mp hparent, rfl⟩
      | some q =>
          have hq : q.levels < depth := by
            rw [levels_of_parent? hparent] at h
            omega
          obtain ⟨last, hlast, htop, habsolute⟩ := ih hq
          refine ⟨last, ?_, htop, habsolute.trans (isAbsolute_of_parent? hparent).symm⟩
          simp [List.getLast?_cons, hlast]

/-- **The chain of ancestors is complete, shrinks with each step and is cut at its depth.** It starts with the
    path as it is written, and each path in it but the first is the parent of the one before and has all the
    components of that one but the last. The number of components other than the root is the number of steps up,
    so that a chain that is not cut ends with the root or the empty path. A greater depth only adds to the chain. -/
theorem ancestors_complete (p : FilePath) (depth : Nat) :
    (p.ancestors depth).length = min depth (p.levels + 1) ∧
    (∀ a, (p.ancestors depth).head? = some a → a = p) ∧
    (p.ancestors depth).IsChain
      (fun a b => a.parent? = some b ∧ ∃ c, a.components = b.components ++ [c]) ∧
    (p.ancestors depth).Pairwise (fun a b => a.components ≠ b.components) ∧
    (p.levels < depth → ∃ last, (p.ancestors depth).getLast? = some last ∧ last.parent? = none ∧
      if p.isAbsolute then last.components = [.root] else last = ⟨""⟩) ∧
    p.ancestors depth <+: p.ancestors (depth + 1) := by
  refine ⟨length_ancestors p depth, ?_, ?_, pairwise_ancestors p depth, ?_, ?_⟩
  · intro a ha
    cases depth with
    | zero => cases ha
    | succ depth => exact (Option.some.inj ha).symm
  · refine (isChain_ancestors p depth).imp fun a b h => ⟨h, ?_⟩
    obtain ⟨last, -, ha⟩ := components_parent? h
    exact ⟨last, ha⟩
  · intro h
    obtain ⟨last, hlast, htop, habsolute⟩ := getLast?_ancestors h
    exact ⟨last, hlast, parent?_eq_none_iff.mpr htop, habsolute ▸ components_top htop⟩
  · rw [← take_ancestors p (Nat.le_succ depth)]
    exact List.take_prefix depth _

/-- A relative path with a leading `.`, an inner `..`, a doubled slash and a `.` at its end. -/
def winding : FilePath := ⟨"./a//../b/."⟩

theorem ancestors_complete_winding :
    winding.levels = 4 ∧ winding.levels < 9 ∧
    winding.ancestors 9 = [winding, ⟨"./a//.."⟩, ⟨"./a"⟩, ⟨"."⟩, ⟨""⟩] ∧
    (winding.ancestors 9).length = min 9 (4 + 1) ∧ (winding.ancestors 2).length = min 2 (4 + 1) ∧
    (∀ a, (winding.ancestors 9).head? = some a → a = winding) ∧
    (∃ last, (winding.ancestors 9).getLast? = some last ∧ last.parent? = none ∧ last = ⟨""⟩) ∧
    winding.ancestors 2 <+: winding.ancestors 3 := by
  have hlevels : winding.levels = 4 := by decide +kernel
  have hlt : winding.levels < 9 := by rw [hlevels]; decide
  obtain ⟨hlength, hhead, -, -, hlast, -⟩ := ancestors_complete winding 9
  obtain ⟨hcut, -, -, -, -, hprefix⟩ := ancestors_complete winding 2
  rw [hlevels] at hlength hcut
  exact ⟨hlevels, hlt, by decide +kernel, hlength, hcut, hhead, hlast hlt, hprefix⟩

-- The chain of an absolute path ends with the root.
example : (FilePath.mk "//a/./").ancestors 3 = [⟨"//a/./"⟩, ⟨"/"⟩] := by decide +kernel

end FilePath

end AccessorScan
