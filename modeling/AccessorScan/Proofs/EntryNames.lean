import AccessorScan.Proofs.FileDifference
import AccessorScan.Proofs.Isolation

/-!
# `Proofs.EntryNames` — the names in a directory

The names in a directory differ and are components of paths. That stays so whatever is written, made or
removed, so it holds of every file system that is made of an empty one. In what order a directory holds its
entries does not matter for what is under some names.

## Contents
- `FileNode.WellNamed`, `WellNamed.get?`, `child?_eq_some_iff`: directories with names of that kind.
- `FileSystem.wellNamed_write`, `wellNamed_makeDirectories`, `wellNamed_remove`: one change keeps them.
- `FileSystem.Built`, `Built.wellNamed`: so do any number of changes of an empty file system.
- `FileNode.Reordered`, `Reordered.get?`, `FileSystem.Reordered`: entries in another order.
-/

namespace AccessorScan

namespace FileNode

/-- The names of the entries of a directory differ, and each of them can be a component of a path. So it is
    with the directories below. -/
inductive WellNamed : FileNode → Prop where
  | file (bytes : ByteArray) : WellNamed (.file bytes)
  | device (full : Bool) : WellNamed (.device full)
  | directory {entries : List (String × FileNode)} (hdistinct : (entries.map (·.1)).Nodup)
      (hnames : ∀ e ∈ entries, FilePath.IsEntryName e.1) (hnodes : ∀ e ∈ entries, WellNamed e.2) :
      WellNamed (.directory entries)

namespace WellNamed

variable {n c : FileNode} {name : String}

theorem distinct (h : n.WellNamed) : (n.entries.map (·.1)).Nodup := by
  cases h with
  | file bytes => exact List.nodup_nil
  | device full => exact List.nodup_nil
  | directory hdistinct hnames hnodes => exact hdistinct

theorem isEntryName (h : n.WellNamed) {e : String × FileNode} (he : e ∈ n.entries) :
    FilePath.IsEntryName e.1 := by
  cases h with
  | file bytes => cases he
  | device full => cases he
  | directory hdistinct hnames hnodes => exact hnames e he

theorem entry (h : n.WellNamed) {e : String × FileNode} (he : e ∈ n.entries) : e.2.WellNamed := by
  cases h with
  | file bytes => cases he
  | device full => cases he
  | directory hdistinct hnames hnodes => exact hnodes e he

theorem child?_eq_some_iff (h : n.WellNamed) : n.child? name = some c ↔ (name, c) ∈ n.entries := by
  constructor
  · intro hchild
    obtain ⟨e, hfind, rfl⟩ := Option.map_eq_some_iff.mp hchild
    have hname : e.1 = name := by simpa using List.find?_some hfind
    exact hname ▸ List.mem_of_find?_eq_some hfind
  · intro hmem
    obtain ⟨before, after, hsplit⟩ := List.append_of_mem hmem
    have hfirst : ∀ e ∈ before, e.1 ≠ name := by
      intro e he heq
      have hdistinct := h.distinct
      rw [hsplit, List.map_append, List.nodup_append] at hdistinct
      exact hdistinct.2.2 e.1 (List.mem_map_of_mem he) name (by simp) heq
    show (n.entries.find? fun e => e.1 == name).map (·.2) = some c
    rw [hsplit]
    exact child?_first hfirst

theorem get? (h : n.WellNamed) {names : List String} (hget : n.get? names = some c) :
    c.WellNamed ∧ ∀ name ∈ names, FilePath.IsEntryName name := by
  induction names generalizing n with
  | nil =>
      obtain rfl := Option.some.inj hget
      exact ⟨h, nofun⟩
  | cons name names ih =>
      obtain ⟨d, hchild, hrest⟩ := Option.bind_eq_some_iff.mp hget
      have hentry := h.child?_eq_some_iff.mp hchild
      obtain ⟨hc, hnames⟩ := ih (h.entry hentry) hrest
      exact ⟨hc, List.forall_mem_cons.mpr ⟨h.isEntryName hentry, hnames⟩⟩

/-! ## Changes -/

theorem putChild (h : n.WellNamed) (hname : FilePath.IsEntryName name) (hc : c.WellNamed) :
    (n.putChild name c).WellNamed := by
  unfold FileNode.putChild
  split
  case isTrue hsome =>
    -- The entry is replaced under its name.
    have hnames : (n.entries.map fun e => if e.1 == name then (name, c) else e).map (·.1) =
        n.entries.map (·.1) := by
      rw [List.map_map]
      refine List.map_congr_left fun e _ => ?_
      by_cases he : e.1 = name <;> simp [he]
    refine .directory (hnames ▸ h.distinct) ?_ ?_ <;>
      simp only [List.forall_mem_map]
    · intro e he
      split
      · exact hname
      · exact h.isEntryName he
    · intro e he
      split
      · exact hc
      · exact h.entry he
  case isFalse hnone =>
    have hfree : name ∉ n.entries.map (·.1) := by
      intro hmem
      obtain ⟨e, he, rfl⟩ := List.mem_map.mp hmem
      exact hnone (by rw [h.child?_eq_some_iff.mpr he]; rfl)
    refine .directory ?_ ?_ ?_
    · rw [List.map_append]
      refine List.nodup_append.mpr ⟨h.distinct, by simp, fun x hx y hy heq => hfree ?_⟩
      obtain rfl : y = name := by simpa using hy
      exact heq ▸ hx
    · exact List.forall_mem_append.mpr ⟨fun e he => h.isEntryName he, by simpa using hname⟩
    · exact List.forall_mem_append.mpr ⟨fun e he => h.entry he, by simpa using hc⟩

theorem put (h : n.WellNamed) {names : List String}
    (hnames : ∀ name ∈ names, FilePath.IsEntryName name) (hc : c.WellNamed) :
    (FileNode.put c names n).WellNamed := by
  induction names generalizing n with
  | nil => exact hc
  | cons name names ih =>
      obtain ⟨hname, hrest⟩ := List.forall_mem_cons.mp hnames
      refine h.putChild hname (ih ?_ hrest)
      cases hchild : n.child? name with
      | none => exact .directory List.nodup_nil nofun nofun
      | some d => exact h.entry (h.child?_eq_some_iff.mp hchild)

theorem erase (h : n.WellNamed) (names : List String) : (FileNode.erase names n).WellNamed := by
  induction names generalizing n with
  | nil => exact h
  | cons name names ih =>
      cases names with
      | nil =>
          refine .directory (h.distinct.sublist (List.filter_sublist.map _)) ?_ ?_
          · exact fun e he => h.isEntryName (List.mem_of_mem_filter he)
          · exact fun e he => h.entry (List.mem_of_mem_filter he)
      | cons other rest =>
          simp only [FileNode.erase]
          cases hchild : n.child? name with
          | none => exact h
          | some d =>
              have hentry := h.child?_eq_some_iff.mp hchild
              exact h.putChild (h.isEntryName hentry) (ih (h.entry hentry))

end WellNamed

end FileNode

namespace FileSystem

variable {fs gs : FileSystem} {p : FilePath}

theorem noSlash_of_mem_splitOn {cs segment : List Char} (h : segment ∈ cs.splitOn '/') : '/' ∉ segment := by
  induction cs generalizing segment with
  | nil =>
      rw [List.mem_singleton.mp h]
      exact List.not_mem_nil
  | cons c cs ih =>
      rw [List.splitOn_cons_eq_if_modifyHead] at h
      split at h
      case isTrue =>
        obtain rfl | h := List.mem_cons.mp h
        · exact List.not_mem_nil
        · exact ih h
      case isFalse hc =>
        -- Only the first segment has the character more.
        cases hsegments : cs.splitOn '/' with
        | nil => exact absurd hsegments (List.splitOn_ne_nil '/' cs)
        | cons first rest =>
            rw [hsegments] at h ih
            obtain rfl | h := List.mem_cons.mp h
            · exact List.not_mem_cons_of_ne_of_not_mem (fun heq => hc (beq_iff_eq.mpr heq.symm)) (ih List.mem_cons_self)
            · exact ih (List.mem_cons_of_mem first h)

theorem noSlash_of_mem_segments {segment : String} (h : segment ∈ segments p) : '/' ∉ segment.toList := by
  obtain ⟨cs, hcs, rfl⟩ := List.mem_map.mp h
  rw [String.toList_ofList]
  exact noSlash_of_mem_splitOn hcs

theorem wellNamed_write (h : fs.root.WellNamed) {bytes : ByteArray} (hwrite : fs.write p bytes = .ok gs) :
    gs.root.WellNamed := by
  obtain rfl | ⟨names, htarget, -, rfl⟩ := write_cases hwrite
  · exact h
  · obtain ⟨parent, last, rfl, htargets⟩ := targets_of_target htarget
    obtain ⟨d, hparent, -⟩ := Option.map_eq_some_iff.mp htargets.opens
    have hlast : FilePath.IsEntryName last :=
      ⟨noSlash_of_mem_segments (List.mem_of_getLast? htargets.ends), htargets.noSlash,
        fun hdot => htargets.noDots (.inl hdot), fun hdots => htargets.noDots (.inr hdots)⟩
    exact h.put (List.forall_mem_append.mpr ⟨(h.get? hparent).2, by simpa using hlast⟩) (.file bytes)

theorem wellNamed_remove (h : fs.root.WellNamed) (hremove : fs.remove p = .ok gs) :
    gs.root.WellNamed := by
  unfold remove at hremove
  cases hplace : fs.locate p with
  | error e => rw [hplace] at hremove; cases hremove
  | ok place =>
      simp only [hplace, bind, Except.bind] at hremove
      split at hremove
      case h_1 => cases hremove
      case h_2 names _ =>
        split at hremove
        · cases hremove
        · cases hremove
          exact h.erase names
      case h_3 => cases hremove

/-- What is under some names of a node that has something under more names. -/
theorem get?_isSome_of_prefix {n : FileNode} {names others : List String} (hothers : names <+: others)
    (h : (n.get? others).isSome = true) : (n.get? names).isSome = true := by
  induction names generalizing n others with
  | nil => rfl
  | cons name names ih =>
      obtain ⟨rest, rfl⟩ := hothers
      obtain ⟨c, hc⟩ := Option.isSome_iff_exists.mp h
      obtain ⟨d, hchild, hrest⟩ := Option.bind_eq_some_iff.mp hc
      have hbelow : (d.get? (names ++ rest)).isSome = true := Option.isSome_iff_exists.mpr ⟨c, hrest⟩
      rw [FileNode.get?, hchild, Option.bind_some]
      exact ih (List.prefix_append names rest) hbelow

/-- The place is there, or the directory that it was removed from. -/
def Holds (fs : FileSystem) : Place → Prop
  | .at names => (fs.root.get? names).isSome = true
  | .removed parent => (fs.root.get? parent).isSome = true

theorem holds_of_step {place next : Place} {segment : String} (h : fs.step place segment = .ok next)
    (hplace : fs.Holds place) : fs.Holds next := by
  cases place with
  | removed parent =>
      simp only [step, node?] at h
      split_ifs at h <;> cases h <;> exact hplace
  | «at» names =>
      obtain ⟨-, ⟨-, rfl⟩ | ⟨-, -, rfl⟩ | ⟨-, -, hchild, rfl⟩⟩ := step_at_eq_ok_iff.mp h
      · exact hplace
      · exact get?_isSome_of_prefix (List.dropLast_prefix names) hplace
      · rw [opens?, Option.isSome_map] at hchild
        exact hchild

/-- From a place that is there a step fails to find something only if a name is missing. -/
theorem isEntryName_of_step {names : List String} {segment : String}
    (h : fs.step (.at names) segment = .error .notFound) (hplace : fs.Holds (.at names))
    (hslash : '/' ∉ segment.toList) : FilePath.IsEntryName segment := by
  rw [step_at] at h
  have hopens : (fs.opens? names).isSome = true := by
    rw [opens?, Option.isSome_map]
    exact hplace
  split at h
  case h_1 =>
    split_ifs at h with hstay hup hchild
    exact ⟨hslash, fun heq => hstay (.inl heq), fun heq => hstay (.inr heq), hup⟩
  case h_2 => cases h
  case h_3 hnone => rw [hnone] at hopens; cases hopens

theorem wellNamed_stepMaking {place next : Place} {segment : String} (h : fs.root.WellNamed)
    (hplace : fs.Holds place) (hslash : '/' ∉ segment.toList)
    (hstep : stepMaking (fs, place) segment = .ok (gs, next)) : gs.root.WellNamed ∧ gs.Holds next := by
  cases hnext : fs.step place segment with
  | ok found =>
      simp only [stepMaking, hnext] at hstep
      cases hstep
      exact ⟨h, holds_of_step hnext hplace⟩
  | error e =>
      simp only [stepMaking, hnext] at hstep
      split at hstep
      case h_1 heq => cases heq
      case h_2 names heq =>
        cases heq
        cases hstep
        obtain ⟨n, hn⟩ := Option.isSome_iff_exists.mp hplace
        have hsegment := isEntryName_of_step hnext hplace hslash
        refine ⟨h.put (List.forall_mem_append.mpr ⟨(h.get? hn).2, by simpa using hsegment⟩)
          (.directory List.nodup_nil nofun nofun), ?_⟩
        show (FileNode.get? _ _).isSome = true
        rw [FileNode.get?_put]
        rfl
      case h_3 => cases hstep

theorem wellNamed_followMaking {segments : List String} {place last : Place} (h : fs.root.WellNamed)
    (hplace : fs.Holds place) (hslash : ∀ segment ∈ segments, '/' ∉ segment.toList)
    (hfollow : segments.foldlM stepMaking (fs, place) = .ok (gs, last)) : gs.root.WellNamed := by
  induction segments generalizing fs place with
  | nil =>
      cases hfollow
      exact h
  | cons segment rest ih =>
      rw [List.foldlM_cons] at hfollow
      obtain ⟨hfirst, hrest⟩ := List.forall_mem_cons.mp hslash
      cases hstep : stepMaking (fs, place) segment with
      | error e => rw [hstep] at hfollow; cases hfollow
      | ok state =>
          rw [hstep] at hfollow
          obtain ⟨hnamed, hholds⟩ := wellNamed_stepMaking h hplace hfirst hstep
          exact ih hnamed hholds hrest hfollow

theorem wellNamed_makeDirectories (h : fs.root.WellNamed) (hhere : fs.Holds fs.here)
    (hmake : fs.makeDirectories p = .ok gs) : gs.root.WellNamed := by
  have hstart : fs.Holds (fs.start p) := by
    unfold start
    split_ifs
    · exact rfl
    · exact hhere
  unfold makeDirectories at hmake
  split_ifs at hmake with hempty
  · cases hmake
    exact h
  · cases hfollow : (segments p).foldlM stepMaking (fs, fs.start p) with
    | error e => simp [hfollow, bind, Except.bind] at hmake
    | ok state =>
        simp only [hfollow, bind, Except.bind] at hmake
        split_ifs at hmake
        cases hmake
        exact wellNamed_followMaking h hstart (fun _ => noSlash_of_mem_segments) hfollow

/-- What can be made of an empty file system. Directories are made from where there is something. -/
inductive Built : FileSystem → Prop where
  | empty : Built ⟨.directory [], .at []⟩
  | seen {fs : FileSystem} (h : Built fs) (place : Place) : Built { fs with here := place }
  | write {fs gs : FileSystem} {p : FilePath} {bytes : ByteArray} (h : Built fs)
      (hwrite : fs.write p bytes = .ok gs) : Built gs
  | makeDirectories {fs gs : FileSystem} {p : FilePath} (h : Built fs) (hhere : fs.Holds fs.here)
      (hmake : fs.makeDirectories p = .ok gs) : Built gs
  | remove {fs gs : FileSystem} {p : FilePath} (h : Built fs) (hremove : fs.remove p = .ok gs) : Built gs

/-- **Names stay names.** Whatever is written, made or removed, the names in a directory differ and can be
    components of paths. -/
theorem Built.wellNamed (h : fs.Built) : fs.root.WellNamed := by
  induction h with
  | empty => exact .directory List.nodup_nil nofun nofun
  | seen _ _ ih => exact ih
  | write _ hwrite ih => exact wellNamed_write ih hwrite
  | makeDirectories _ hhere hmake ih => exact wellNamed_makeDirectories ih hhere hmake
  | remove _ hremove ih => exact wellNamed_remove ih hremove

end FileSystem

/-! ## Entries in another order -/

namespace FileNode

/-- The same node with the entries of some directories in another order. -/
inductive Reordered : FileNode → FileNode → Prop where
  | refl (n : FileNode) : Reordered n n
  | entries {es others : List (String × FileNode)} (h : es.Perm others) :
      Reordered (.directory es) (.directory others)
  | inside (before after : List (String × FileNode)) (name : String) {m n : FileNode}
      (h : Reordered m n) :
      Reordered (.directory (before ++ (name, m) :: after)) (.directory (before ++ (name, n) :: after))
  | trans {l m n : FileNode} (h : Reordered l m) (h2 : Reordered m n) : Reordered l n

namespace Reordered

variable {m n : FileNode}

theorem sight_eq (h : Reordered m n) : m.sight = n.sight := by
  induction h with
  | refl n => rfl
  | entries h => rfl
  | inside before after name h ih => rfl
  | trans h h2 ih ih2 => exact ih.trans ih2

theorem isDirectory_eq (h : Reordered m n) : m.isDirectory = n.isDirectory := by
  have hsight := h.sight_eq
  cases m <;> cases n <;> cases hsight <;> rfl

theorem isFile_eq (h : Reordered m n) : m.isFile = n.isFile := by
  have hsight := h.sight_eq
  cases m <;> cases n <;> cases hsight <;> rfl

theorem wellNamed (h : Reordered m n) (hm : m.WellNamed) : n.WellNamed := by
  induction h with
  | refl n => exact hm
  | entries h =>
      exact .directory ((h.map _).nodup_iff.mp hm.distinct) (fun e he => hm.isEntryName (h.mem_iff.mpr he))
        (fun e he => hm.entry (h.mem_iff.mpr he))
  | inside before after name h ih =>
      obtain _ | _ | ⟨hdistinct, hnames, hnodes⟩ := hm
      simp only [List.map_append, List.map_cons, List.forall_mem_append, List.forall_mem_cons]
        at hdistinct hnames hnodes
      refine .directory (by simpa using hdistinct) ?_ ?_ <;>
        simp only [List.forall_mem_append, List.forall_mem_cons]
      · exact hnames
      · exact ⟨hnodes.1, ih hnodes.2.1, hnodes.2.2⟩
  | trans h h2 ih ih2 => exact ih2 (ih hm)

theorem child? (h : Reordered m n) (hm : m.WellNamed) (name : String) :
    Option.Rel Reordered (m.child? name) (n.child? name) := by
  have hrefl : ∀ found : Option FileNode, Option.Rel Reordered found found := fun found => by
    cases found with
    | none => exact .none
    | some c => exact .some (.refl c)
  induction h with
  | refl n => exact hrefl _
  | @entries es others h =>
      have hn := (Reordered.entries h).wellNamed hm
      have hsame : (directory es).child? name = (directory others).child? name := by
        refine Option.ext fun c => ?_
        rw [hm.child?_eq_some_iff, hn.child?_eq_some_iff]
        exact h.mem_iff
      rw [hsame]
      exact hrefl _
  | @inside before after inner c d h ih =>
      by_cases hname : name = inner
      · have hn := (Reordered.inside before after inner h).wellNamed hm
        have hc : (inner, c) ∈ (directory (before ++ (inner, c) :: after)).entries := by
          simp [FileNode.entries]
        have hd : (inner, d) ∈ (directory (before ++ (inner, d) :: after)).entries := by
          simp [FileNode.entries]
        rw [hname, hm.child?_eq_some_iff.mpr hc, hn.child?_eq_some_iff.mpr hd]
        exact .some h
      · rw [child?_other hname]
        exact hrefl _
  | @trans l m n h h2 ih ih2 =>
      have hfirst := ih hm
      have hsecond := ih2 (h.wellNamed hm)
      generalize l.child? name = a, m.child? name = b, n.child? name = c at hfirst hsecond
      cases hfirst with
      | none => exact hsecond
      | some hab =>
          cases hsecond with
          | some hbc => exact .some (hab.trans hbc)

/-- Under the same names there is nothing in both, or a node and the same one reordered. -/
theorem get? (h : Reordered m n) (hm : m.WellNamed) (names : List String) :
    Option.Rel (fun c d => Reordered c d ∧ c.WellNamed) (m.get? names) (n.get? names) := by
  induction names generalizing m n with
  | nil => exact .some ⟨h, hm⟩
  | cons name names ih =>
      have hentry : ∀ c, m.child? name = some c → c.WellNamed := fun c hc =>
        hm.entry (hm.child?_eq_some_iff.mp hc)
      have hchild := h.child? hm name
      simp only [FileNode.get?]
      generalize m.child? name = found, n.child? name = other at hchild hentry
      cases hchild with
      | none => exact .none
      | some hcd => exact ih hcd (hentry _ rfl)

theorem sight?_eq (h : Reordered m n) (hm : m.WellNamed) (names : List String) :
    (m.get? names).map sight = (n.get? names).map sight := by
  have hget := h.get? hm names
  generalize m.get? names = found, n.get? names = other at hget
  cases hget with
  | none => rfl
  | some hcd => exact congrArg some hcd.1.sight_eq

end Reordered

end FileNode

/-- The same file system with the entries of some directories in another order. -/
structure FileSystem.Reordered (fs gs : FileSystem) : Prop where
  root : FileNode.Reordered fs.root gs.root
  here : fs.here = gs.here

end AccessorScan
