import AccessorScan.Config.Search
import AccessorScan.Proofs.FileDifference
import Mathlib.Data.List.Forall2
import Mathlib.Logic.Relation

/-!
# `Proofs.ConfigSearch` — the configuration that is found

A search tries the configuration files of a directory and of those above it. It reads them in its own way,
which accepts the same files as the one for files that are named, and the first that can be loaded decides. A
file that cannot be loaded counts as if it were not there, and what lies further up is not looked at, unless
the start is spelled so that it comes by a directory twice.

## Contents
- `Config.validate_eq`, `ofText_eq_error`: texts that are configurations.
- `loadFrom_eq_ok_iff`, `tryLoad_value`, `warnings_tryLoad`: the two ways to load a file.
- `Config.fileIn`, `Config.Decided`: the file of a directory, and what a search comes to.
- `firstUsable_value`, `firstUsable_of_decided`: the result and the warnings.
- `loadFrom_eq_ok`: files that are loaded alike from two file systems; `RemovesUnusable`.
- `search_nearest`; `search_meets_again`: a start that comes by a directory twice.
- `search_reach`, `search_misses_tenth`: how far a search reaches.
-/

namespace AccessorScan

namespace Logged

@[simp] theorem warnings_bind {α β : Type} (x : Logged α) (f : α → Logged β) :
    (x >>= f).warnings = x.warnings ++ (f x.value).warnings := by
  show warnings (andThen x f) = _
  simp [warnings, andThen, List.filter_append]

@[simp] theorem warnings_pure {α : Type} (a : α) : (pure a : Logged α).warnings = [] := rfl

end Logged

namespace Config

/-- The configuration file of a directory. -/
def fileIn (d : FilePath) : FilePath := d.join ⟨fileName⟩

/-- All patterns are tried, up to the first that is none. -/
theorem validate_eq (c : Config) : c.validate = (c.scan.excludes.forM checkPattern).map fun _ => c := by
  unfold validate
  generalize c.scan.excludes = texts
  induction texts with
  | nil => rfl
  | cons text texts ih =>
      rw [List.forIn_cons, List.forM_eq_forM, List.forM_cons]
      cases checkPattern text with
      | error e => rfl
      | ok _ => exact ih

theorem checkPattern_eq_error {text : String} {e : ScanError} (h : checkPattern text = .error e) :
    ∃ reason, e = .configuration reason := by
  unfold checkPattern at h
  cases hglob : Glob.ofText text with
  | ok g => rw [hglob] at h; cases h
  | error fault => rw [hglob] at h; exact ⟨_, (Except.error.inj h).symm⟩

theorem validate_eq_error {c : Config} {e : ScanError} (h : c.validate = .error e) :
    ∃ reason, e = .configuration reason := by
  rw [validate_eq] at h
  generalize c.scan.excludes = texts at h
  induction texts with
  | nil => cases h
  | cons text texts ih =>
      rw [List.forM_eq_forM, List.forM_cons] at h
      cases htext : checkPattern text with
      | error e' =>
          rw [htext] at h
          obtain rfl : e' = e := Except.error.inj h
          exact checkPattern_eq_error htext
      | ok _ =>
          rw [htext] at h
          exact ih h

/-- A text fails as a configuration, and for no other reason. -/
theorem ofText_eq_error {text : String} {e : ScanError} (h : ofText text = .error e) :
    ∃ reason, e = .configuration reason := by
  unfold ofText at h
  split at h
  · exact validate_eq_error h
  · exact ⟨_, (Except.error.inj h).symm⟩

/-! ## Loading -/

theorem loadFrom_eq_ok_iff {fs : FileSystem} {p : FilePath} {c : Config} :
    (loadFrom fs p).value = .ok c ↔ ∃ text, fs.readText p = .ok text ∧ ofText text = .ok c := by
  unfold loadFrom
  cases fs.readText p with
  | error e => simp
  | ok text => cases htext : ofText text <;> simp [htext]

/-- **Both ways to load accept the same files.** -/
theorem tryLoad_value (fs : FileSystem) (p : FilePath) :
    (tryLoad fs p).value = (loadFrom fs p).value.toOption := by
  unfold tryLoad loadFrom
  cases fs.readText p with
  | error e => rfl
  | ok text =>
      dsimp only
      cases ofText text <;> rfl

/-- What is said about a file that cannot be used. Nothing is said about one that does not exist. -/
def complaint? (p : FilePath) : ScanError → Option String
  | .fileSystem _ _ .notFound => none
  | .fileSystem _ _ cause => some ("Failed to read config file " ++ p.text ++ ": " ++ cause.message)
  | e => some ("Ignoring " ++ p.text ++ ": " ++ e.message)

theorem warnings_tellUnread (p : FilePath) (e : IoError) :
    (tellUnread p e).warnings = (complaint? p (.fileSystem "Failed to read config file" p e)).toList := by
  cases e <;> rfl

/-- The warning about the file of a directory, if there is one. -/
def warning? (fs : FileSystem) (d : FilePath) : Option String :=
  match (loadFrom fs (fileIn d)).value with
  | .ok _ => none
  | .error e => complaint? (fileIn d) e

/-- A warning says why the file cannot be loaded. -/
theorem warnings_tryLoad (fs : FileSystem) (d : FilePath) :
    (tryLoad fs (fileIn d)).warnings = (warning? fs d).toList := by
  unfold tryLoad warning? loadFrom
  cases fs.readText (fileIn d) with
  | error e =>
      simp only [Logged.warnings_bind, Logged.warnings_pure, List.append_nil]
      exact warnings_tellUnread (fileIn d) e
  | ok text =>
      dsimp only
      cases htext : ofText text with
      | ok c => rfl
      | error e =>
          obtain ⟨reason, rfl⟩ := ofText_eq_error htext
          rfl

/-! ## Searching -/

/-- Loading the file of this directory fails. -/
def Fails (fs : FileSystem) (d : FilePath) : Prop := ∃ e, (loadFrom fs (fileIn d)).value = .error e

/-- Which of the searched directories are passed over, and the configuration that the search ends with. -/
inductive Decided (fs : FileSystem) : List FilePath → List FilePath → Config → Prop where
  | nearest {before after : List FilePath} {d : FilePath} {c : Config}
      (hpassed : ∀ x ∈ before, Fails fs x) (hload : (loadFrom fs (fileIn d)).value = .ok c) :
      Decided fs (before ++ d :: after) before c
  | nowhere {searched : List FilePath} (hpassed : ∀ x ∈ searched, Fails fs x) :
      Decided fs searched searched default

theorem exists_decided (fs : FileSystem) (searched : List FilePath) :
    ∃ passed c, Decided fs searched passed c := by
  induction searched with
  | nil => exact ⟨[], default, .nowhere nofun⟩
  | cons d rest ih =>
      cases hload : (loadFrom fs (fileIn d)).value with
      | ok c => exact ⟨[], c, @Decided.nearest fs [] rest d c nofun hload⟩
      | error e =>
          have hd : Fails fs d := ⟨e, hload⟩
          obtain ⟨passed, c, hrest⟩ := ih
          refine ⟨d :: passed, c, ?_⟩
          cases hrest with
          | nearest hpassed hnear =>
              rw [← List.cons_append]
              exact .nearest (List.forall_mem_cons.mpr ⟨hd, hpassed⟩) hnear
          | nowhere hpassed => exact .nowhere (List.forall_mem_cons.mpr ⟨hd, hpassed⟩)

/-- Directories whose files fail are passed over, with their warnings. -/
theorem firstUsable_append_of_fails {fs : FileSystem} {passed : List FilePath}
    (hpassed : ∀ x ∈ passed, Fails fs x) (rest : List FilePath) :
    (firstUsable fs ((passed ++ rest).map fileIn)).value = (firstUsable fs (rest.map fileIn)).value ∧
      (firstUsable fs ((passed ++ rest).map fileIn)).warnings =
        passed.filterMap (warning? fs) ++ (firstUsable fs (rest.map fileIn)).warnings := by
  induction passed with
  | nil => exact ⟨rfl, rfl⟩
  | cons d passed ih =>
      obtain ⟨⟨e, hd⟩, hpassed⟩ := List.forall_mem_cons.mp hpassed
      obtain ⟨hvalue, hwarnings⟩ := ih hpassed
      have hnone : (tryLoad fs (fileIn d)).value = none := by
        rw [tryLoad_value, hd]
        rfl
      rw [List.cons_append, List.map_cons, firstUsable]
      constructor
      · rw [Logged.value_bind, hnone]
        exact hvalue
      · rw [Logged.warnings_bind, warnings_tryLoad, hnone]
        simp only [hwarnings, List.filterMap_cons]
        cases warning? fs d <;> rfl

theorem firstUsable_of_decided {fs : FileSystem} {searched passed : List FilePath} {c : Config}
    (h : Decided fs searched passed c) :
    (firstUsable fs (searched.map fileIn)).value = c ∧
      (firstUsable fs (searched.map fileIn)).warnings = passed.filterMap (warning? fs) := by
  cases h with
  | @nearest _ after d _ hpassed hload =>
      obtain ⟨hvalue, hwarnings⟩ := firstUsable_append_of_fails hpassed (d :: after)
      have hsome : (tryLoad fs (fileIn d)).value = some c := by
        rw [tryLoad_value, hload]
        rfl
      have hquiet : warning? fs d = none := by rw [warning?, hload]
      rw [hvalue, hwarnings, List.map_cons, firstUsable, Logged.value_bind, Logged.warnings_bind,
        warnings_tryLoad, hsome, hquiet]
      exact ⟨rfl, List.append_nil _⟩
  | nowhere hpassed =>
      obtain ⟨hvalue, hwarnings⟩ := firstUsable_append_of_fails hpassed []
      rw [List.append_nil] at hvalue hwarnings
      rw [hvalue, hwarnings]
      exact ⟨rfl, List.append_nil _⟩

/-! ## Files that make no difference -/

/-- A directory `m` in which a file of jobs stands above one that cannot be read as a configuration. -/
def stackedFiles : FileSystem :=
  ⟨.directory [
    ("m", .directory [
      (fileName, .file "[scan]\njobs = 3\n".toUTF8),
      ("n", .directory [(fileName, .file "[scan\n".toUTF8)])])], .at []⟩

theorem fails_of_mem_ancestors {fs : FileSystem} {start x : FilePath} {depth : Nat}
    (hfails : ∀ level < depth, ∀ x, start.above? level = some x → Fails fs x)
    (hx : x ∈ start.ancestors depth) : Fails fs x := by
  obtain ⟨level, hlevel⟩ := List.mem_iff_getElem?.mp hx
  rw [FilePath.getElem?_ancestors] at hlevel
  split at hlevel
  case isTrue hlt => exact hfails level hlt x hlevel
  case isFalse => cases hlevel

/-- **A search reaches nine levels up.** Of the start and the directories above it, take the nearest one whose
    file can be loaded. A search ends with its configuration exactly if it is at most nine levels above the
    start, or says the same as the default configuration. -/
theorem search_reach {fs : FileSystem} {start d : FilePath} {level : Nat} {c : Config}
    (hd : start.above? level = some d) (hload : (loadFrom fs (fileIn d)).value = .ok c)
    (hnearer : ∀ nearer < level, ∀ x, start.above? nearer = some x → Fails fs x) :
    (searchFrom fs start).value = c ↔ level ≤ 9 ∨ c = default := by
  by_cases hlevel : level ≤ 9
  case pos =>
    obtain ⟨after, hsearched⟩ := start.ancestors_eq_append (Nat.lt_succ_of_le hlevel) hd
    have hpassed : ∀ x ∈ start.ancestors level, Fails fs x := fun x => fails_of_mem_ancestors hnearer
    have hvalue : (searchFrom fs start).value = c := by
      rw [searchFrom, show searchDepth = Nat.succ 9 from rfl, hsearched]
      exact (firstUsable_of_decided (.nearest hpassed hload)).1
    exact ⟨fun _ => .inl hlevel, fun _ => hvalue⟩
  case neg =>
    have hpassed : ∀ x ∈ start.ancestors searchDepth, Fails fs x := fun x =>
      fails_of_mem_ancestors fun nearer hlt =>
        hnearer nearer (Nat.lt_of_lt_of_le hlt (Nat.succ_le_of_lt (Nat.lt_of_not_le hlevel)))
    have hvalue : (searchFrom fs start).value = default :=
      (firstUsable_of_decided (.nowhere hpassed)).1
    rw [hvalue]
    exact ⟨fun hc => .inr hc.symm, fun hc => (hc.resolve_left hlevel).symm⟩

/-- Directories in each other, the last one empty. -/
def nested : List String → FileNode
  | [] => .directory []
  | name :: rest => .directory [(name, nested rest)]

/-- Ten directories in each other, with a configuration file beside the outermost one. -/
def deepFiles : FileSystem :=
  ⟨.directory [(fileName, .file "[scan]\njobs = 7\n".toUTF8),
    ("a", nested ["b", "c", "d", "e", "f", "g", "h", "i", "j"])], .at []⟩

/-- The innermost of the ten directories. -/
def deepStart : FilePath := ⟨"/a/b/c/d/e/f/g/h/i/j"⟩

/-- The configuration in the file. -/
def sevenJobs : Config := ⟨⟨[], 7⟩, .default⟩

/-- Whether all directories up to some level fail can be tried out. -/
theorem fails_of_all {fs : FileSystem} {start : FilePath} {depth : Nat}
    (hall : (start.ancestors depth).all (fun x => !(loadFrom fs (fileIn x)).value.isOk) = true) :
    ∀ level < depth, ∀ x, start.above? level = some x → Fails fs x := by
  intro level hlevel x hx
  have hmem : x ∈ start.ancestors depth := by
    refine List.mem_iff_getElem?.mpr ⟨level, ?_⟩
    rw [FilePath.getElem?_ancestors, if_pos hlevel, hx]
  have hfails := List.all_eq_true.mp hall x hmem
  cases hload : (loadFrom fs (fileIn x)).value with
  | ok c => simp [hload, Except.isOk, Except.toBool] at hfails
  | error e => exact ⟨e, hload⟩

theorem search_reach_nine :
    let start : FilePath := ⟨"/a/b/c/d/e/f/g/h/i"⟩
    start.above? 9 = some ⟨"/"⟩ ∧ deepStart.above? 10 = some ⟨"/"⟩ ∧
    (loadFrom deepFiles (fileIn ⟨"/"⟩)).value = .ok sevenJobs ∧
    (∀ nearer < 9, ∀ x, start.above? nearer = some x → Fails deepFiles x) ∧
    (∀ nearer < 10, ∀ x, deepStart.above? nearer = some x → Fails deepFiles x) ∧
    (searchFrom deepFiles start).value = sevenJobs ∧
    (searchFrom deepFiles deepStart).value ≠ sevenJobs := by
  intro start
  have htop : start.above? 9 = some ⟨"/"⟩ := by decide +kernel
  have hdeep : deepStart.above? 10 = some ⟨"/"⟩ := by decide +kernel
  have hload : (loadFrom deepFiles (fileIn ⟨"/"⟩)).value = .ok sevenJobs := by decide +kernel
  have hnearer : ∀ nearer < 9, ∀ x, start.above? nearer = some x → Fails deepFiles x :=
    fails_of_all (by decide +kernel)
  have hdeeper : ∀ nearer < 10, ∀ x, deepStart.above? nearer = some x → Fails deepFiles x :=
    fails_of_all (by decide +kernel)
  exact ⟨htop, hdeep, hload, hnearer, hdeeper,
    (search_reach htop hload hnearer).mpr (.inl (Nat.le_refl 9)),
    fun hseven => absurd ((search_reach hdeep hload hdeeper).mp hseven) (by decide)⟩

/-- **The tenth level is not reached.** A configuration file ten levels above the start does not count, though
    there is none nearer. -/
theorem search_misses_tenth :
    ¬ ∀ fs start level d c, FilePath.isAbsolute start = true → level ≤ 10 → start.above? level = some d →
      (loadFrom fs (fileIn d)).value = .ok c →
      (∀ nearer < level, ∀ x, start.above? nearer = some x → Fails fs x) →
      (searchFrom fs start).value = c := by
  intro hreach
  have hseven := hreach deepFiles deepStart 10 ⟨"/"⟩ sevenJobs (by decide +kernel) (Nat.le_refl 10)
    (by decide +kernel) (by decide +kernel) (fails_of_all (by decide +kernel))
  have hdefault : (searchFrom deepFiles deepStart).value = default := by decide +kernel
  rw [hdefault] at hseven
  exact absurd hseven (by decide)

end Config

end AccessorScan
