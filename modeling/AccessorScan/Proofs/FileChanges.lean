import AccessorScan.Proofs.Places

/-!
# `Proofs.FileChanges` — what writing a file changes

A file is written into a directory that is there, under a name that holds no directory. So only the file
itself is different afterwards, and every path that led somewhere still leads there.

## Contents
- `FileNode.get?_put`, `FileNode.sight_put`: what is under some names after a change.
- `FileSystem.Targets`, `target_mono`: the files that a path can name.
- `FileSystem.WritesAt`: at most the file that a path names is created or replaced; `WritesAt.trans`.
- `FileSystem.write_cases`, `writesAt_of_write`: what one write does.
-/

namespace AccessorScan

/-! ## Nodes -/

namespace FileNode

theorem child?_putChild (n c : FileNode) (name other : String) :
    (n.putChild name c).child? other = if other = name then some c else n.child? other := by
  have hfind : (n.child? name).isSome = (n.entries.find? fun e => e.1 == name).isSome :=
    Option.isSome_map
  unfold putChild
  rw [hfind]
  split
  case isTrue hsome =>
    -- A replaced entry keeps its name, so the same entry is found.
    have hkey : ((fun e : String × FileNode => e.1 == other) ∘
        fun e => if e.1 == name then (name, c) else e) = fun e => e.1 == other := by
      funext e
      by_cases he : e.1 = name <;> simp [he]
    show ((n.entries.map fun e => if e.1 == name then (name, c) else e).find?
      fun e => e.1 == other).map (·.2) = _
    rw [List.find?_map, hkey, child?]
    cases hother : n.entries.find? fun e => e.1 == other with
    | none =>
        have hne : other ≠ name := by
          rintro rfl
          rw [hother] at hsome
          cases hsome
        rw [if_neg hne]
        rfl
    | some e =>
        have he : e.1 = other := by simpa using List.find?_some hother
        by_cases hne : other = name <;> simp [he, hne]
  case isFalse hnone =>
    show ((n.entries ++ [(name, c)]).find? fun e => e.1 == other).map (·.2) = _
    rw [List.find?_append, child?]
    by_cases hne : other = name
    · subst hne
      simp [Option.not_isSome_iff_eq_none.mp hnone]
    · have hname : (name == other) = false := by simpa using Ne.symm hne
      simp [hne, hname]

theorem get?_put (c : FileNode) (names : List String) (n : FileNode) :
    (put c names n).get? names = some c := by
  induction names generalizing n with
  | nil => rfl
  | cons name names ih =>
      simp only [put, get?, child?_putChild, if_true, Option.bind_some]
      exact ih _

theorem sight_putChild (n c : FileNode) (name : String) : (n.putChild name c).sight = .directory := by
  unfold putChild
  split <;> rfl

theorem sight_of_isDirectory {n : FileNode} (h : n.isDirectory = true) : n.sight = .directory := by
  cases n with
  | directory entries => rfl
  | file bytes => cases h
  | device full => cases h

theorem isDirectory_of_child? {n c : FileNode} {name : String} (h : n.child? name = some c) :
    n.isDirectory = true := by
  cases n with
  | directory entries => rfl
  | file bytes => cases h
  | device full => cases h

/-- Nothing is below a node that is no directory. -/
theorem get?_of_not_directory {n : FileNode} (h : n.isDirectory = false) {names : List String}
    (hnames : names ≠ []) : n.get? names = none := by
  cases names with
  | nil => exact absurd rfl hnames
  | cons name names =>
      cases n with
      | file bytes => rfl
      | directory entries => cases h
      | device full => rfl

/-- A file that is put into a directory, where no directory was, leaves everything else as it looks. -/
theorem sight_put {n : FileNode} {bytes : ByteArray} {parent : List String} {last : String}
    (hparent : (n.get? parent).map isDirectory = some true)
    (hold : ∀ d, n.get? (parent ++ [last]) = some d → d.isDirectory = false) {others : List String}
    (hothers : others ≠ parent ++ [last]) :
    ((put (.file bytes) (parent ++ [last]) n).get? others).map sight =
      (n.get? others).map sight := by
  -- Along the way to the directory both nodes have the same other entries; in the directory itself only
  -- the entry of the file differs, and below a file there is nothing.
  induction parent generalizing n others with
  | nil =>
      cases others with
      | nil =>
          have hdirectory : n.isDirectory = true := Option.some.inj hparent
          show some (n.putChild last _).sight = some n.sight
          rw [sight_putChild, sight_of_isDirectory hdirectory]
      | cons other rest =>
          show (((n.putChild last (.file bytes)).child? other).bind fun c => c.get? rest).map sight =
            ((n.child? other).bind fun c => c.get? rest).map sight
          rw [child?_putChild]
          split
          case isTrue hother =>
            have hrest : rest ≠ [] := by
              rintro rfl
              exact hothers (by rw [hother]; rfl)
            have hempty : ∀ d, n.child? last = some d → d.get? rest = none := fun d hd =>
              get?_of_not_directory (hold d (by simp only [List.nil_append, get?, hd]; rfl)) hrest
            rw [Option.bind_some, get?_of_not_directory rfl hrest, hother]
            cases hd : n.child? last with
            | none => rfl
            | some d => rw [Option.bind_some, hempty d hd]
          case isFalse => rfl
  | cons name parent ih =>
      cases hchild : n.child? name with
      | none =>
          simp only [get?, hchild] at hparent
          cases hparent
      | some d =>
          simp only [get?, hchild, Option.bind_some, List.cons_append] at hparent hold
          simp only [put, List.cons_append, hchild, Option.getD_some]
          cases others with
          | nil =>
              show some (n.putChild name _).sight = some n.sight
              rw [sight_putChild, sight_of_isDirectory (isDirectory_of_child? hchild)]
          | cons other rest =>
              simp only [get?, child?_putChild]
              split
              case isTrue hother =>
                subst hother
                simp only [Option.bind_some, hchild]
                refine ih hparent hold ?_
                rintro rfl
                exact hothers rfl
              case isFalse => rfl

end FileNode

namespace FileSystem

variable {fs gs hs : FileSystem} {p : FilePath} {names : List String}

/-! ## Targets -/

/-- A path names a file in a directory that is there. -/
structure Targets (fs : FileSystem) (p : FilePath) (parent : List String) (last : String) :
    Prop where
  ends : (segments p).getLast? = some last
  nonempty : p.text.isEmpty = false
  nonzero : (p.text.toList.any fun c => c.toNat == 0) = false
  noSlash : last ≠ ""
  noDots : ¬(last = "." ∨ last = "..")
  follow : (segments p).dropLast.foldlM fs.step (fs.start p) = .ok (.at parent)
  opens : fs.opens? parent = some true

theorem target_of_targets {parent : List String} {last : String} (h : fs.Targets p parent last) :
    fs.target p = .ok (parent ++ [last]) := by
  obtain ⟨n, hn, hdirectory⟩ := Option.map_eq_some_iff.mp h.opens
  cases n with
  | directory entries =>
      simp only [target, h.ends, h.nonempty, h.nonzero, h.noSlash, h.noDots, h.follow, bind,
        Except.bind, node?, hn]
      rfl
  | file bytes => cases hdirectory
  | device full => cases hdirectory

/-- There are no other targets. -/
theorem targets_of_target (h : fs.target p = .ok names) :
    ∃ parent last, names = parent ++ [last] ∧ fs.Targets p parent last := by
  simp only [target] at h
  split at h
  case h_1 => cases h
  case h_2 last hlast =>
    cases hfollow : (segments p).dropLast.foldlM fs.step (fs.start p) with
    | error e =>
        rw [hfollow] at h
        split_ifs at h
        · dsimp only at h
          split at h <;> cases h
        · cases h
        · cases h
    | ok place =>
        simp only [hfollow, bind, Except.bind] at h
        split_ifs at h with hempty hzero hslash hdirectory hdots
        · split at h <;> cases h
        · split at h
          case h_1 entries hnode =>
            cases place with
            | removed parent => cases h
            | «at» parent =>
                cases h
                have hparent : fs.root.get? parent = some (.directory entries) := hnode
                refine ⟨parent, last, rfl, hlast, by simpa using hempty, by simpa using hzero, hslash,
                  hdots, hfollow, ?_⟩
                rw [opens?, hparent]
                rfl
          case h_2 => cases h
          case h_3 => cases h

/-- A target stays one where more places are open. -/
theorem target_mono (hopens : ∀ names b, fs.opens? names = some b → gs.opens? names = some b)
    (hhere : gs.here = fs.here) (h : fs.target p = .ok names) : gs.target p = .ok names := by
  obtain ⟨parent, last, rfl, htargets⟩ := targets_of_target h
  have hfollow : (segments p).dropLast.foldlM gs.step (gs.start p) = .ok (.at parent) := by
    unfold start
    rw [hhere]
    exact follow_mono hopens htargets.follow
  exact target_of_targets { htargets with follow := hfollow, opens := hopens _ _ htargets.opens }

/-! ## Writes -/

/-- At most the file that a path names has been created or replaced. -/
inductive WritesAt (p : FilePath) (fs : FileSystem) : FileSystem → Prop where
  | nothing : WritesAt p fs fs
  | file {gs : FileSystem} (names : List String) (bytes : ByteArray)
      (htarget : fs.target p = .ok names)
      (hold : fs.sight? names = none ∨ ∃ old, fs.sight? names = some (.file old))
      (hnew : gs.sight? names = some (.file bytes))
      (hothers : ∀ others, others ≠ names → gs.sight? others = fs.sight? others)
      (hhere : gs.here = fs.here) : WritesAt p fs gs

theorem opens?_eq (fs : FileSystem) (names : List String) :
    fs.opens? names = (fs.sight? names).map Sight.isDirectory := by
  unfold opens? sight?
  rcases fs.root.get? names with _ | _ | _ | _ <;> rfl

namespace WritesAt

theorem here_eq (h : WritesAt p fs gs) : gs.here = fs.here := by
  cases h with
  | nothing => rfl
  | file names bytes htarget hold hnew hothers hhere => exact hhere

theorem sight?_eq (h : WritesAt p fs gs) (hnames : fs.target p ≠ .ok names) :
    gs.sight? names = fs.sight? names := by
  cases h with
  | nothing => rfl
  | file names2 bytes htarget hold hnew hothers hhere =>
      refine hothers names ?_
      rintro rfl
      exact hnames htarget

/-- Every place that was open still is. -/
theorem opens_mono (h : WritesAt p fs gs) {others : List String} {b : Bool}
    (hb : fs.opens? others = some b) : gs.opens? others = some b := by
  cases h with
  | nothing => exact hb
  | file names bytes htarget hold hnew hothers hhere =>
      rw [opens?_eq] at hb ⊢
      by_cases hne : others = names
      · subst hne
        obtain hnone | ⟨old, hfile⟩ := hold
        · rw [hnone] at hb
          cases hb
        · rw [hfile] at hb
          rw [hnew]
          exact hb
      · rw [hothers others hne]
        exact hb

theorem target_eq (h : WritesAt p fs gs) {q : FilePath} (hq : fs.target q = .ok names) :
    gs.target q = .ok names :=
  target_mono (fun _ _ => h.opens_mono) h.here_eq hq

theorem trans (h : WritesAt p fs gs) (h2 : WritesAt p gs hs) : WritesAt p fs hs := by
  cases h with
  | nothing => exact h2
  | file names bytes htarget hold hnew hothers hhere =>
      have hfirst := WritesAt.file names bytes htarget hold hnew hothers hhere
      cases h2 with
      | nothing => exact hfirst
      | file names2 bytes2 htarget2 hold2 hnew2 hothers2 hhere2 =>
          -- The path has the same target after the first write.
          obtain rfl : names = names2 :=
            Except.ok.inj ((hfirst.target_eq htarget).symm.trans htarget2)
          exact .file names bytes2 htarget hold hnew2
            (fun others hne => (hothers2 others hne).trans (hothers others hne))
            (hhere2.trans hhere)

end WritesAt

/-- A write leaves a device as it is, and otherwise puts a file where none or another one was. -/
theorem write_cases {bytes : ByteArray} (h : fs.write p bytes = .ok gs) :
    gs = fs ∨
      ∃ names, fs.target p = .ok names ∧
        (fs.sight? names = none ∨ ∃ old, fs.sight? names = some (.file old)) ∧
        gs = { fs with root := FileNode.put (.file bytes) names fs.root } := by
  unfold write at h
  cases htarget : fs.target p with
  | error e => rw [htarget] at h; cases h
  | ok names =>
      rw [htarget] at h
      cases hnode : fs.root.get? names with
      | none =>
          simp only [bind, Except.bind, hnode] at h
          cases h
          exact .inr ⟨names, rfl, .inl (by rw [sight?, hnode]; rfl), rfl⟩
      | some n =>
          cases n with
          | file old =>
              simp only [bind, Except.bind, hnode] at h
              cases h
              exact .inr ⟨names, rfl, .inr ⟨old, by rw [sight?, hnode]; rfl⟩, rfl⟩
          | directory entries =>
              simp only [bind, Except.bind, hnode] at h
              cases h
          | device full =>
              simp only [bind, Except.bind, hnode] at h
              split at h
              · cases h
              · cases h
                exact .inl rfl

theorem writesAt_of_write {bytes : ByteArray} (h : fs.write p bytes = .ok gs) :
    WritesAt p fs gs := by
  obtain rfl | ⟨names, htarget, hold, rfl⟩ := write_cases h
  · exact .nothing
  · obtain ⟨parent, last, rfl, htargets⟩ := targets_of_target htarget
    have hfree : ∀ n, fs.root.get? (parent ++ [last]) = some n → n.isDirectory = false := by
      intro n hn
      rw [sight?, hn] at hold
      cases n with
      | file bytes => rfl
      | directory entries => simp [FileNode.sight] at hold
      | device full => rfl
    refine .file (parent ++ [last]) bytes htarget hold ?_ (fun others hne => ?_) rfl
    · unfold sight?
      rw [FileNode.get?_put]
      rfl
    · exact FileNode.sight_put htargets.opens hfree hne

end FileSystem

end AccessorScan
