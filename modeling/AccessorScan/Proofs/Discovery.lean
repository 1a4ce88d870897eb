import AccessorScan.Proofs.Checking
import AccessorScan.Proofs.EntryNames
import AccessorScan.Proofs.PathOrder

/-!
# `Proofs.Discovery` — exactly the source files, in one order

A walk goes from entry to entry and yields files. Of these the source files are found that no pattern
excludes, and they are sorted. As names in a directory differ, no path is found twice, so what is found is the
only increasing list of these files, in whatever order the walk comes by them.

## Contents
- `Walked`, `FileSystem.Yields`: the files that a walk yields.
- `mem_walk_iff`, `pairwise_walk`: a walk finds the source files among them, each of them once.
- `FileSystem.Reordered.findSources_eq`: the order of entries does not count.
- `FileSystem.IsFound`, `discover_isFound`: what is found without patterns.
- `ArePatterns`, `FilePath.ExcludedBy`, `Config.any_fits_iff`: exclude patterns.
- `Scan.IsListing`, `findSources_congr`, `findSources_append`, `discovery_canonical`.
-/

namespace AccessorScan

/-! ## What a walk yields -/

/-- A walk yields the file of these bytes under the path `p`. The walk has come to a node under `path` and
    under `names` from the root; it yields a file, and goes on to the entries of a directory that are not
    ruled out. -/
inductive Walked : List IgnoreLevel → FilePath → List String → FileNode → FilePath → ByteArray → Prop where
  | file (levels : List IgnoreLevel) (path : FilePath) (names : List String) (bytes : ByteArray) :
      Walked levels path names (.file bytes) path bytes
  | entry {levels : List IgnoreLevel} {path p : FilePath} {names : List String} {name : String}
      {n : FileNode} {entries : List (String × FileNode)} {bytes : ByteArray} (hentry : (name, n) ∈ entries)
      (hkept : isIgnored (.ofDirectory names.length (.directory entries) :: levels) (names ++ [name])
        n.isDirectory = false)
      (h : Walked (.ofDirectory names.length (.directory entries) :: levels) (path.join ⟨name⟩)
        (names ++ [name]) n p bytes) :
      Walked levels path names (.directory entries) p bytes

/-- The walk from a starting point yields the file of these bytes under the path `p`. -/
structure FileSystem.Yields (fs : FileSystem) (root p : FilePath) (bytes : ByteArray) : Prop where
  stands : standsForInput root = false
  walked : ∃ names n, fs.locate root = .ok (.at names) ∧ fs.root.get? names = some n ∧
    Walked ((levelsAbove fs.root names).map (·.2)) root names n p bytes

variable {levels : List IgnoreLevel} {path p q : FilePath} {names : List String} {m n : FileNode}
  {bytes : ByteArray}

/-- What a walk finds below one entry of a directory. -/
def walkEntry (levels : List IgnoreLevel) (path : FilePath) (names : List String) (e : String × FileNode) :
    List FilePath :=
  if isIgnored levels (names ++ [e.1]) e.2.isDirectory then []
  else walk levels (path.join ⟨e.1⟩) (names ++ [e.1]) e.2

theorem walkEntries_eq (levels : List IgnoreLevel) (path : FilePath) (names : List String)
    (entries : List (String × FileNode)) :
    walkEntries levels path names entries = entries.flatMap (walkEntry levels path names) := by
  induction entries with
  | nil => rfl
  | cons e rest ih =>
      rw [walkEntries, ih]
      rfl

theorem walk_directory (levels : List IgnoreLevel) (path : FilePath) (names : List String)
    (entries : List (String × FileNode)) :
    walk levels path names (.directory entries) =
      entries.flatMap (walkEntry (.ofDirectory names.length (.directory entries) :: levels) path names) := by
  rw [walk, walkEntries_eq]

theorem mem_walkEntry_iff {e : String × FileNode} :
    p ∈ walkEntry levels path names e ↔
      isIgnored levels (names ++ [e.1]) e.2.isDirectory = false ∧
        p ∈ walk levels (path.join ⟨e.1⟩) (names ++ [e.1]) e.2 := by
  unfold walkEntry
  cases isIgnored levels (names ++ [e.1]) e.2.isDirectory <;> simp

/-- A walk finds the source files among the files that it yields. -/
theorem mem_walk_iff (hn : n.WellNamed) :
    p ∈ walk levels path names n ↔ p.isJava = true ∧ ∃ bytes, Walked levels path names n p bytes := by
  induction hn generalizing levels path names with
  | file bytes =>
      rw [walk]
      constructor
      · intro h
        split at h
        case isTrue hjava =>
          obtain rfl := List.mem_singleton.mp h
          exact ⟨hjava, bytes, .file levels p names bytes⟩
        case isFalse => cases h
      · rintro ⟨hjava, _, _ | _⟩
        rw [if_pos hjava]
        exact List.mem_singleton_self p
  | device full =>
      constructor
      · intro h
        cases h
      · rintro ⟨-, bytes, h⟩
        cases h
  | @directory entries hdistinct hnames hnodes ih =>
      simp only [walk_directory, List.mem_flatMap, mem_walkEntry_iff]
      constructor
      · rintro ⟨e, he, hkept, hwalk⟩
        obtain ⟨hjava, bytes, h⟩ := (ih e he).mp hwalk
        exact ⟨hjava, bytes, .entry he hkept h⟩
      · rintro ⟨hjava, bytes, _ | ⟨hentry, hkept, h⟩⟩
        exact ⟨_, hentry, hkept, (ih _ hentry).mpr ⟨hjava, bytes, h⟩⟩

/-- A path that is yielded has the components of the node that the walk has come to. -/
theorem Walked.components_prefix (h : Walked levels path names n p bytes) (hn : n.WellNamed) :
    path.components <+: p.components := by
  induction h with
  | file levels path names bytes => exact List.prefix_rfl
  | @entry levels path p names name n entries bytes hentry hkept h ih =>
      have hjoined := FilePath.components_join path (hn.isEntryName hentry)
      exact (hjoined ▸ List.prefix_append _ _).trans (ih (hn.entry hentry))

/-- A walk does not find two spellings of one path. -/
theorem pairwise_walk (hn : n.WellNamed) :
    (walk levels path names n).Pairwise fun p q => p.components ≠ q.components := by
  induction hn generalizing levels path names with
  | file bytes =>
      rw [walk]
      split
      · exact List.pairwise_singleton _ _
      · exact .nil
  | device full => exact .nil
  | @directory entries hdistinct hnames hnodes ih =>
      -- The next component is the name of the entry.
      have hfirst : ∀ e ∈ entries, ∀ {levels q}, q ∈ walkEntry levels path names e →
          path.components ++ [.name e.1] <+: q.components := by
        intro e he levels q hq
        obtain ⟨-, bytes, hwalked⟩ := (mem_walk_iff (hnodes e he)).mp (mem_walkEntry_iff.mp hq).2
        exact FilePath.components_join path (hnames e he) ▸ hwalked.components_prefix (hnodes e he)
      rw [walk_directory, List.pairwise_flatMap]
      refine ⟨fun e he => ?_, ?_⟩
      · unfold walkEntry
        split
        · exact .nil
        · exact ih e he
      · refine (List.pairwise_map.mp hdistinct).imp_of_mem fun {d e} hd he hne p hp q hq heq => hne ?_
        have hd := hfirst d hd hp
        have he := hfirst e he hq
        rw [heq] at hd
        have hsame := (List.prefix_of_prefix_length_le hd he (by simp)).eq_of_length (by simp)
        simpa using hsame

theorem sortPaths_walk_increasing (hn : n.WellNamed) :
    FilePath.Increasing (sortPaths (walk levels path names n)) :=
  sortPaths_increasing (List.pairwise_map.mpr (pairwise_walk hn))

/-! ## Entries in another order -/

theorem FileNode.Reordered.ofDirectory_eq (h : Reordered m n) (hm : m.WellNamed) (depth : Nat) :
    IgnoreLevel.ofDirectory depth m = IgnoreLevel.ofDirectory depth n :=
  IgnoreLevel.ofDirectory_congr (fun list _ => h.sight?_eq hm list) depth

/-- A walk finds the same files, in some order. -/
theorem FileNode.Reordered.walk_perm (h : Reordered m n) (hm : m.WellNamed) :
    (walk levels path names m).Perm (walk levels path names n) := by
  induction h generalizing levels path names with
  | refl n => exact .refl _
  | @entries es others h =>
      rw [walk_directory, walk_directory, (Reordered.entries h).ofDirectory_eq hm]
      exact h.flatMap_right _
  | @inside before after name m n h ih =>
      rw [walk_directory, walk_directory, (Reordered.inside before after name h).ofDirectory_eq hm]
      have hentry : ∀ levels, (walkEntry levels path names (name, m)).Perm
          (walkEntry levels path names (name, n)) := by
        intro levels
        unfold walkEntry
        rw [h.isDirectory_eq]
        split
        · exact .refl _
        · exact ih (hm.entry (e := (name, m)) (by simp [FileNode.entries]))
      simp only [List.flatMap_append, List.flatMap_cons]
      exact .append_left _ (.append_right _ (hentry _))
  | trans h h2 ih ih2 => exact (ih hm).trans (ih2 (h.wellNamed hm))

theorem FileNode.Reordered.sortPaths_walk_eq (h : Reordered m n) (hm : m.WellNamed) :
    sortPaths (walk levels path names m) = sortPaths (walk levels path names n) :=
  FilePath.Increasing.sortPaths_eq (sortPaths_walk_increasing (h.wellNamed hm))
    ((h.walk_perm hm).trans (List.mergeSort_perm _ _).symm)

namespace FileSystem.Reordered

variable {fs gs : FileSystem}

theorem locate_eq (h : fs.Reordered gs) (hfs : fs.root.WellNamed) (p : FilePath) :
    fs.locate p = gs.locate p := by
  have hopens : ∀ names, fs.opens? names = gs.opens? names := fun names => by
    rw [opens?_eq, opens?_eq, sight?, sight?, h.root.sight?_eq hfs names]
  exact locate_congr hopens h.here p

/-- At the same place there is nothing in both, or a node and the same one reordered. -/
theorem node? (h : fs.Reordered gs) (hfs : fs.root.WellNamed) (place : Place) :
    Option.Rel (fun m n => FileNode.Reordered m n ∧ m.WellNamed) (fs.node? place) (gs.node? place) := by
  cases place with
  | «at» names => exact h.root.get? hfs names
  | removed parent => exact .some ⟨.refl _, .directory List.nodup_nil nofun nofun⟩

theorem isFile_eq (h : fs.Reordered gs) (hfs : fs.root.WellNamed) (p : FilePath) :
    fs.isFile p = gs.isFile p := by
  unfold isFile lookup
  rw [← h.locate_eq hfs p]
  cases fs.locate p with
  | error e => rfl
  | ok place =>
      have hnode := h.node? hfs place
      simp only [bind, Except.bind]
      generalize fs.node? place = found, gs.node? place = other at hnode
      cases hnode with
      | none => rfl
      | some hmn => exact hmn.1.isFile_eq

theorem levelsAbove_eq (h : fs.Reordered gs) (hfs : fs.root.WellNamed) (names : List String) :
    levelsAbove fs.root names = levelsAbove gs.root names := by
  unfold levelsAbove
  refine congrArg (fun level => List.filterMap level _) (funext fun depth => ?_)
  have hget := h.root.get? hfs (names.take depth)
  generalize fs.root.get? (names.take depth) = found, gs.root.get? (names.take depth) = other at hget
  cases hget with
  | none => rfl
  | some hmn => simp only [Option.map_some, hmn.1.ofDirectory_eq hmn.2]

theorem discover_eq (h : fs.Reordered gs) (hfs : fs.root.WellNamed) (root : FilePath) :
    discover fs root = discover gs root := by
  unfold discover
  rw [← h.isFile_eq hfs root, ← h.locate_eq hfs root]
  cases fs.locate root with
  | error e => rfl
  | ok place =>
      cases place with
      | removed parent => rfl
      | «at» names =>
          have hnode := h.node? hfs (.at names)
          have hlevels := h.levelsAbove_eq hfs names
          dsimp only
          generalize fs.node? (.at names) = found, gs.node? (.at names) = other at hnode
          cases hnode with
          | none => rfl
          | @some m n hmn =>
              obtain ⟨hmn, hm⟩ := hmn
              have hsight := hmn.sight_eq
              cases m <;> cases n <;> simp only [FileNode.sight, reduceCtorEq] at hsight
              · rfl
              · simp only [hlevels, hmn.sortPaths_walk_eq hm]
              · rfl

/-- **The same files are found**, and the same is told about it. -/
theorem findSources_eq (h : fs.Reordered gs) (hfs : fs.root.WellNamed) (root : FilePath)
    (excludes : List String) :
    Scan.findSources fs root excludes = Scan.findSources gs root excludes := by
  unfold Scan.findSources splitExcluded
  rw [h.discover_eq hfs, h.isFile_eq hfs]

end FileSystem.Reordered

/-! ## What is found -/

/-- What is found below a starting point: each source file that the walk yields, once and in order. -/
structure FileSystem.IsFound (fs : FileSystem) (root : FilePath) (found : List FilePath) : Prop where
  increasing : FilePath.Increasing found
  mem_iff : ∀ p, p ∈ found ↔ p.isJava = true ∧ ∃ bytes, fs.Yields root p bytes

/-- Nothing is found where nothing is yielded. -/
theorem FileSystem.isFound_nil {fs : FileSystem} {root : FilePath}
    (h : ∀ p bytes, ¬ fs.Yields root p bytes) : fs.IsFound root [] :=
  ⟨.nil, fun p => by simp [h]⟩

/-- Below a directory that is found what its walk finds. -/
theorem FileSystem.isFound_walk {fs : FileSystem} {root : FilePath} {names : List String} {n : FileNode}
    (hfs : fs.root.WellNamed) (hinput : standsForInput root = false)
    (hplace : fs.locate root = .ok (.at names)) (hnode : fs.root.get? names = some n) :
    fs.IsFound root (sortPaths (walk ((levelsAbove fs.root names).map (·.2)) root names n)) := by
  have hn := (hfs.get? hnode).1
  refine ⟨sortPaths_walk_increasing hn, fun p => ?_⟩
  rw [mem_sortPaths, mem_walk_iff hn]
  refine and_congr_right fun _ => exists_congr fun bytes => ⟨fun hwalked => ?_, ?_⟩
  · exact ⟨hinput, names, _, hplace, hnode, hwalked⟩
  · rintro ⟨-, others, m, hothers, hm, hwalked⟩
    cases hplace.symm.trans hothers
    cases hnode.symm.trans hm
    exact hwalked

theorem discover_isFound {fs : FileSystem} {root : FilePath} {found : List FilePath}
    (hfs : fs.root.WellNamed) (hfile : fs.isFile root = false) (h : discover fs root = .ok found) :
    fs.IsFound root found := by
  unfold discover at h
  rw [hfile, if_neg Bool.false_ne_true] at h
  cases hinput : standsForInput root with
  | true =>
      rw [hinput, if_pos rfl] at h
      cases h
      refine FileSystem.isFound_nil fun p bytes hyields => ?_
      rw [hyields.stands] at hinput
      cases hinput
  | false =>
      rw [hinput, if_neg Bool.false_ne_true] at h
      cases hplace : fs.locate root with
      | error e => rw [hplace] at h; cases h
      | ok place =>
          simp only [hplace] at h
          split at h
          case h_1 entries names hnode =>
            split at h
            case isTrue =>
              cases h
              exact FileSystem.isFound_walk hfs hinput hplace hnode
            case isFalse => cases h
          case h_2 hother =>
            -- Neither a device nor a directory that was removed has entries.
            cases h
            refine FileSystem.isFound_nil fun p bytes hyields => ?_
            obtain ⟨-, names, n, hnames, hn, hwalked⟩ := hyields
            cases hplace.symm.trans hnames
            cases hwalked with
            | file =>
                have hisFile := FileSystem.isFile_iff.mpr ⟨_, _, hplace, hn⟩
                rw [hfile] at hisFile
                cases hisFile
            | entry => exact hother _ _ hn rfl

/-! ## Exclude patterns -/

/-- All these texts are patterns. -/
def ArePatterns (excludes : List String) : Prop := ∀ text ∈ excludes, ∃ g, Glob.ofText text = .ok g

/-- One of these patterns matches the path. -/
def FilePath.ExcludedBy (excludes : List String) (p : FilePath) : Prop :=
  ∃ text ∈ excludes, ∃ g, Glob.ofText text = .ok g ∧ g.fits p = true

namespace Config

variable {excludes : List String} {globs : List Glob}

theorem parseGlobs_cons (text : String) (excludes : List String) :
    parseGlobs (text :: excludes) =
      match Glob.ofText text with
      | .error e => .error (.pattern e)
      | .ok g => (parseGlobs excludes).map (g :: ·) := by
  rw [parseGlobs, List.mapM_cons]
  cases Glob.ofText text with
  | error e => rfl
  | ok g =>
      show (parseGlobs excludes >>= fun gs => pure (g :: gs)) = _
      cases parseGlobs excludes <;> rfl

theorem parseGlobs_cons_eq_ok_iff {text : String} :
    parseGlobs (text :: excludes) = .ok globs ↔
      ∃ g gs, Glob.ofText text = .ok g ∧ parseGlobs excludes = .ok gs ∧ globs = g :: gs := by
  rw [parseGlobs_cons]
  cases Glob.ofText text with
  | error e => simp
  | ok g => cases parseGlobs excludes <;> simp [Except.map, eq_comm]

theorem exists_parseGlobs_iff : (∃ globs, parseGlobs excludes = .ok globs) ↔ ArePatterns excludes := by
  induction excludes with
  | nil => exact ⟨fun _ => nofun, fun _ => ⟨[], rfl⟩⟩
  | cons text rest ih =>
      rw [ArePatterns, List.forall_mem_cons, ← ArePatterns, ← ih]
      constructor
      · rintro ⟨globs, h⟩
        obtain ⟨g, gs, hg, hgs, -⟩ := parseGlobs_cons_eq_ok_iff.mp h
        exact ⟨⟨g, hg⟩, gs, hgs⟩
      · rintro ⟨⟨g, hg⟩, gs, hgs⟩
        exact ⟨g :: gs, parseGlobs_cons_eq_ok_iff.mpr ⟨g, gs, hg, hgs, rfl⟩⟩

theorem any_fits_iff (h : parseGlobs excludes = .ok globs) (p : FilePath) :
    globs.any (fun g => g.fits p) = true ↔ p.ExcludedBy excludes := by
  induction excludes generalizing globs with
  | nil =>
      cases h
      simp [FilePath.ExcludedBy]
  | cons text rest ih =>
      obtain ⟨g, gs, hg, hgs, rfl⟩ := parseGlobs_cons_eq_ok_iff.mp h
      simp only [List.any_cons, Bool.or_eq_true, ih hgs, FilePath.ExcludedBy, List.exists_mem_cons_iff, hg,
        Except.ok.injEq, exists_eq_left']

end Config

theorem FilePath.excludedBy_append {some more : List String} {p : FilePath} :
    p.ExcludedBy (some ++ more) ↔ p.ExcludedBy some ∨ p.ExcludedBy more := by
  simp only [ExcludedBy, List.mem_append, or_and_right, exists_or]

/-! ## Finding source files -/

namespace Scan

variable {fs : FileSystem} {root : FilePath} {excludes : List String} {ps : List FilePath}

/-- Of what is found that is left which no pattern excludes; a starting point that is a file is left. -/
theorem findSources_eq_ok_iff :
    (findSources fs root excludes).value = .ok ps ↔
      ∃ globs found, Config.parseGlobs excludes = .ok globs ∧ discover fs root = .ok found ∧
        ps = found.filter fun p => fs.isFile root || !globs.any fun g => g.fits p := by
  unfold findSources
  cases Config.parseGlobs excludes with
  | error e => simp
  | ok globs =>
      cases discover fs root with
      | error e => simp
      | ok found =>
          cases hfile : fs.isFile root <;> simp [splitExcluded, hfile, eq_comm, List.partition_eq_filter_filter]

/-- The files that a scan is to find: those that the walk yields, if they have the name of a source file and
    no pattern excludes them, each once and in order. -/
structure IsListing (fs : FileSystem) (root : FilePath) (excludes : List String) (ps : List FilePath) :
    Prop where
  increasing : FilePath.Increasing ps
  mem_iff : ∀ p, p ∈ ps ↔ (∃ bytes, fs.Yields root p bytes) ∧
    (∃ stem ending, p.fileName? = some (stem ++ "." ++ ending) ∧ stem ≠ "" ∧ ending.toLower = "java") ∧
    ¬ p.ExcludedBy excludes

theorem isListing_of_findSources (hfs : fs.root.WellNamed) (hfile : fs.isFile root = false)
    (h : (findSources fs root excludes).value = .ok ps) : IsListing fs root excludes ps := by
  obtain ⟨globs, found, hglobs, hfound, rfl⟩ := findSources_eq_ok_iff.mp h
  obtain ⟨hincreasing, hmem⟩ := discover_isFound hfs hfile hfound
  refine ⟨hincreasing.filter _, fun p => ?_⟩
  rw [List.mem_filter, hmem, hfile, Bool.false_or, Bool.not_eq_true', ← Bool.not_eq_true,
    Config.any_fits_iff hglobs, FilePath.isJava_iff]
  tauto

theorem IsListing.unique {qs : List FilePath} (hps : IsListing fs root excludes ps)
    (hqs : IsListing fs root excludes qs) : qs = ps :=
  hqs.increasing.ext hps.increasing fun p => by rw [hqs.mem_iff, hps.mem_iff]

/-- The files can be gathered from what the walk yields in any order. -/
theorem sortPaths_yielded {globs : List Glob} {yielded : List FilePath} (h : IsListing fs root excludes ps)
    (hglobs : Config.parseGlobs excludes = .ok globs) (honce : yielded.Nodup)
    (hyielded : ∀ p, p ∈ yielded ↔ ∃ bytes, fs.Yields root p bytes) :
    sortPaths (yielded.filter fun p => p.isJava && !globs.any fun g => g.fits p) = ps := by
  refine h.increasing.sortPaths_eq
    ((List.perm_ext_iff_of_nodup (honce.filter _) h.increasing.nodup).mpr fun p => ?_)
  rw [List.mem_filter, hyielded, h.mem_iff, Bool.and_eq_true, Bool.not_eq_true', ← Bool.not_eq_true,
    Config.any_fits_iff hglobs, FilePath.isJava_iff]

/-- The order of patterns does not count, nor how often each of them stands there. -/
theorem findSources_congr {others : List String} (h : ArePatterns excludes)
    (hsame : ∀ text, text ∈ excludes ↔ text ∈ others) :
    findSources fs root excludes = findSources fs root others := by
  have hothers : ArePatterns others := fun text htext => h text ((hsame text).mpr htext)
  obtain ⟨globs, hglobs⟩ := Config.exists_parseGlobs_iff.mpr h
  obtain ⟨globs', hglobs'⟩ := Config.exists_parseGlobs_iff.mpr hothers
  have hfits : ∀ p : FilePath, (globs.any fun g => g.fits p) = globs'.any fun g => g.fits p := fun p => by
    rw [Bool.eq_iff_iff, Config.any_fits_iff hglobs, Config.any_fits_iff hglobs']
    simp only [FilePath.ExcludedBy, hsame]
  simp only [findSources, hglobs, hglobs', splitExcluded, hfits]

/-- More patterns leave what each of the two lists of patterns leaves. -/
theorem findSources_append {others : List String} {qs : List FilePath}
    (hps : (findSources fs root excludes).value = .ok ps)
    (hqs : (findSources fs root others).value = .ok qs) :
    ∃ rs, (findSources fs root (excludes ++ others)).value = .ok rs ∧
      rs.Sublist ps ∧ rs.Sublist qs ∧ ∀ p, p ∈ rs ↔ p ∈ ps ∧ p ∈ qs := by
  obtain ⟨globs, found, hglobs, hfound, rfl⟩ := findSources_eq_ok_iff.mp hps
  obtain ⟨globs', found', hglobs', hfound', rfl⟩ := findSources_eq_ok_iff.mp hqs
  cases hfound.symm.trans hfound'
  have hboth : ArePatterns (excludes ++ others) := List.forall_mem_append.mpr
    ⟨Config.exists_parseGlobs_iff.mp ⟨globs, hglobs⟩, Config.exists_parseGlobs_iff.mp ⟨globs', hglobs'⟩⟩
  obtain ⟨all, hall⟩ := Config.exists_parseGlobs_iff.mpr hboth
  have hkept : ∀ p : FilePath, (fs.isFile root || !all.any fun g => g.fits p) =
      ((fs.isFile root || !globs.any fun g => g.fits p) &&
        (fs.isFile root || !globs'.any fun g => g.fits p)) := fun p => by
    have hfits : (all.any fun g => g.fits p) =
        ((globs.any fun g => g.fits p) || globs'.any fun g => g.fits p) := by
      rw [Bool.eq_iff_iff, Bool.or_eq_true, Config.any_fits_iff hall, Config.any_fits_iff hglobs,
        Config.any_fits_iff hglobs', FilePath.excludedBy_append]
    rw [hfits, Bool.not_or, Bool.or_and_distrib_left]
  refine ⟨_, findSources_eq_ok_iff.mpr ⟨all, found, hall, hfound, rfl⟩, ?_, ?_, fun p => ?_⟩
  · exact List.monotone_filter_right found fun p hp => by simp_all
  · exact List.monotone_filter_right found fun p hp => by simp_all
  · simp only [List.mem_filter, hkept, Bool.and_eq_true]
    tauto

/-- **Discovery is exact and canonical.** A starting point that is a file is all that is found. Otherwise,
    unless the walk fails, the files that it yields are found, each once and in order, if they have the name
    of a source file and no pattern excludes them. There is one such list; it can be gathered from what is
    yielded in any order, and it is the same for the same file system with the entries of directories in
    another order. The patterns count as a set, and more of them leave what each list of them leaves. -/
theorem discovery_canonical (fs : FileSystem) (root : FilePath) (hnames : fs.root.WellNamed) :
    (fs.isFile root = true → ∀ excludes, ArePatterns excludes →
      (findSources fs root excludes).value = .ok [root]) ∧
    (fs.isFile root = false → (∀ e, discover fs root ≠ .error e) → ∀ excludes, ArePatterns excludes →
      ∃ ps, (findSources fs root excludes).value = .ok ps ∧ IsListing fs root excludes ps ∧
        (∀ qs, IsListing fs root excludes qs → qs = ps) ∧
        ∀ (globs : List Glob) (yielded : List FilePath), Config.parseGlobs excludes = .ok globs → yielded.Nodup →
          (∀ p, p ∈ yielded ↔ ∃ bytes, fs.Yields root p bytes) →
          sortPaths (yielded.filter fun p => p.isJava && !globs.any fun g => g.fits p) = ps) ∧
    (∀ gs, fs.Reordered gs → ∀ excludes, findSources fs root excludes = findSources gs root excludes) ∧
    (∀ excludes others, ArePatterns excludes → (∀ text, text ∈ excludes ↔ text ∈ others) →
      findSources fs root excludes = findSources fs root others) ∧
    ∀ excludes others ps qs, (findSources fs root excludes).value = .ok ps →
      (findSources fs root others).value = .ok qs →
      ∃ rs, (findSources fs root (excludes ++ others)).value = .ok rs ∧
        rs.Sublist ps ∧ rs.Sublist qs ∧ ∀ p, p ∈ rs ↔ p ∈ ps ∧ p ∈ qs := by
  refine ⟨?_, ?_, ?_, ?_, ?_⟩
  · intro hfile excludes hexcludes
    obtain ⟨globs, hglobs⟩ := Config.exists_parseGlobs_iff.mpr hexcludes
    exact findSources_of_isFile hfile hglobs
  · intro hfile hwalk excludes hexcludes
    obtain ⟨globs, hglobs⟩ := Config.exists_parseGlobs_iff.mpr hexcludes
    cases hfound : discover fs root with
    | error e => exact absurd hfound (hwalk e)
    | ok found =>
        have hvalue := findSources_eq_ok_iff.mpr ⟨globs, found, hglobs, hfound, rfl⟩
        have hlisting := isListing_of_findSources hnames hfile hvalue
        exact ⟨_, hvalue, hlisting, fun qs => hlisting.unique, fun globs yielded =>
          sortPaths_yielded hlisting⟩
  · exact fun gs h excludes => h.findSources_eq hnames root excludes
  · exact fun excludes others => findSources_congr
  · exact fun excludes others ps qs => findSources_append

/-- A directory with sources under names that bytes and components order differently, a file that is no
    source, and a directory that is ruled out. -/
def mixedEntries : List (String × FileNode) :=
  [(".gitignore", .file "out/\n".toUTF8), ("B.JAVA", .file ByteArray.empty),
    ("a", .directory [("Z.java", .file ByteArray.empty)]),
    ("a-b", .directory [("C.java", .file ByteArray.empty)]), ("notes.txt", .file ByteArray.empty),
    ("out", .directory [("G.java", .file ByteArray.empty)])]

theorem wellNamed_mixed : (FileNode.directory mixedEntries).WellNamed := by
  have hsingle : ∀ name, FilePath.IsEntryName name →
      (FileNode.directory [(name, .file ByteArray.empty)]).WellNamed := fun name hname =>
    .directory (List.nodup_singleton name) (by simpa using hname) (by simpa using .file _)
  refine .directory (by decide) (by decide +kernel) ?_
  simp only [mixedEntries, List.forall_mem_cons]
  exact ⟨.file _, .file _, hsingle _ (by decide), hsingle _ (by decide), .file _, hsingle _ (by decide), nofun⟩

theorem discovery_canonical_mixed :
    let fs : FileSystem := ⟨.directory mixedEntries, .at []⟩
    let gs : FileSystem := ⟨.directory mixedEntries.reverse, .at []⟩
    let noA := ["/a/*"]
    let all : List FilePath := [⟨"/B.JAVA"⟩, ⟨"/a/Z.java"⟩, ⟨"/a-b/C.java"⟩]
    let left : List FilePath := [⟨"/B.JAVA"⟩, ⟨"/a-b/C.java"⟩]
    (fs.isFile ⟨"/a/Z.java"⟩ = true ∧ (findSources fs ⟨"/a/Z.java"⟩ noA).value = .ok [⟨"/a/Z.java"⟩]) ∧
    (fs.isFile ⟨"/"⟩ = false ∧ (∀ e, discover fs ⟨"/"⟩ ≠ .error e) ∧
      (findSources fs ⟨"/"⟩ noA).value = .ok left ∧ IsListing fs ⟨"/"⟩ noA left) ∧
    (fs.Reordered gs ∧ (findSources gs ⟨"/"⟩ []).value = .ok all) ∧
    findSources fs ⟨"/"⟩ noA = findSources fs ⟨"/"⟩ (noA ++ noA) ∧
    ∃ rs, (findSources fs ⟨"/"⟩ ([] ++ noA)).value = .ok rs ∧ ∀ p, p ∈ rs ↔ p ∈ all ∧ p ∈ left := by
  intro fs gs noA all left
  have hall : (findSources fs ⟨"/"⟩ []).value = .ok all :=
    findSources_of_walk (by decide) rfl rfl rfl (by decide +kernel) (by decide +kernel)
  obtain ⟨_, found, hnone, hdiscover, hfound⟩ := findSources_eq_ok_iff.mp hall
  cases Config.parseGlobs_nil.symm.trans hnone
  simp only [List.any_nil, Bool.not_false, Bool.or_true, List.filter_true] at hfound
  have hleft : (findSources fs ⟨"/"⟩ noA).value = .ok left :=
    findSources_eq_ok_iff.mpr ⟨_, all, rfl, hfound ▸ hdiscover, by decide +kernel⟩
  have hwalk : ∀ e, discover fs ⟨"/"⟩ ≠ .error e := fun e he => nomatch he.symm.trans hdiscover
  have hpatterns : ArePatterns noA := Config.exists_parseGlobs_iff.mp ⟨_, rfl⟩
  have hdirectory : fs.isFile ⟨"/"⟩ = false := by decide +kernel
  have hfile : fs.isFile ⟨"/a/Z.java"⟩ = true := by decide +kernel
  have hreordered : fs.Reordered gs := ⟨.entries (List.reverse_perm _).symm, rfl⟩
  obtain ⟨hsingle, -⟩ := discovery_canonical fs ⟨"/a/Z.java"⟩ wellNamed_mixed
  obtain ⟨-, hlisted, horder, hset, hmore⟩ := discovery_canonical fs ⟨"/"⟩ wellNamed_mixed
  obtain ⟨ps, hps, hlisting, -⟩ := hlisted hdirectory hwalk noA hpatterns
  cases hps.symm.trans hleft
  obtain ⟨rs, hrs, -, -, hmeet⟩ := hmore [] noA _ _ hall hleft
  exact ⟨⟨hfile, hsingle hfile noA hpatterns⟩, ⟨hdirectory, hwalk, hleft, hlisting⟩,
    ⟨hreordered, horder gs hreordered [] ▸ hall⟩, hset noA _ hpatterns (fun text => by simp), rs, hrs, hmeet⟩

end Scan

end AccessorScan
