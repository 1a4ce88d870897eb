import AccessorScan.Command.Basic
import AccessorScan.Proofs.ConfigSearch
import AccessorScan.Proofs.Discovery

/-!
# `Proofs.ExcludePatterns` — one judgement of the exclude patterns

Exclude patterns are read twice, and in different ways: one by one when a configuration is accepted, and into a
list when files are looked for. Both readings stop at the first text that is no pattern, and looking for files
stops there before the file system is asked for anything. So a configuration that was accepted is never turned
down later.

## Contents
- `Config.FirstFault`: the first text that is no pattern.
- `Config.forM_checkPattern_of_firstFault`, `parseGlobs_of_firstFault`: where the two readings stop.
- `Config.FailsFor`: the ways in which a configuration fails for a text; `Config.failsFor_of_firstFault`.
- `Config.Accepted`: the configurations that can be had; `Config.Accepted.arePatterns`.
- `ScanCommand.runOn_ne_pattern`: a scan command does not fail for a pattern.
- `patterns_agreed`, with `faultyExcludes`.
-/

namespace AccessorScan

namespace Config

variable {excludes : List String} {text : String} {e : GlobError}

/-- Of these texts `text` is the first that is no pattern, with its fault. -/
def FirstFault (excludes : List String) (text : String) (e : GlobError) : Prop :=
  ∃ before after, excludes = before ++ text :: after ∧ ArePatterns before ∧ Glob.ofText text = .error e

theorem firstFault_cons_iff {first : String} :
    FirstFault (first :: excludes) text e ↔
      first = text ∧ Glob.ofText text = .error e ∨
        (∃ g, Glob.ofText first = .ok g) ∧ FirstFault excludes text e := by
  constructor
  · rintro ⟨before, after, hsplit, hbefore, hfault⟩
    cases before with
    | nil => exact .inl ⟨(List.cons.inj hsplit).1, hfault⟩
    | cons b before =>
        obtain ⟨rfl, hrest⟩ := List.cons.inj hsplit
        obtain ⟨hb, hbefore⟩ := List.forall_mem_cons.mp hbefore
        exact .inr ⟨hb, before, after, hrest, hbefore, hfault⟩
  · rintro (⟨rfl, hfault⟩ | ⟨hfirst, before, after, rfl, hbefore, hfault⟩)
    · exact ⟨[], excludes, rfl, nofun, hfault⟩
    · exact ⟨first :: before, after, rfl, List.forall_mem_cons.mpr ⟨hfirst, hbefore⟩, hfault⟩

/-- Either all texts are patterns or there is a first one that is none. -/
theorem arePatterns_or_firstFault (excludes : List String) :
    ArePatterns excludes ∨ ∃ text e, FirstFault excludes text e := by
  induction excludes with
  | nil => exact .inl nofun
  | cons first rest ih =>
      cases hfirst : Glob.ofText first with
      | error e => exact .inr ⟨first, e, firstFault_cons_iff.mpr (.inl ⟨rfl, hfirst⟩)⟩
      | ok g =>
          rcases ih with hpatterns | ⟨text, e, hfault⟩
          · exact .inl (List.forall_mem_cons.mpr ⟨⟨g, hfirst⟩, hpatterns⟩)
          · exact .inr ⟨text, e, firstFault_cons_iff.mpr (.inr ⟨⟨g, hfirst⟩, hfault⟩)⟩

theorem not_arePatterns_of_firstFault (h : FirstFault excludes text e) : ¬ ArePatterns excludes := by
  obtain ⟨before, after, rfl, -, hfault⟩ := h
  intro hpatterns
  obtain ⟨g, hg⟩ := hpatterns text (List.mem_append_right _ List.mem_cons_self)
  cases hfault.symm.trans hg

/-! ## The two readings -/

/-- What is said about a configuration with this text among its patterns. -/
def invalidPattern (text : String) (e : GlobError) : ScanError :=
  .configuration ("invalid exclude pattern '" ++ text ++ "': " ++ e.message)

theorem checkPattern_of_error (h : Glob.ofText text = .error e) :
    checkPattern text = .error (invalidPattern text e) := by
  rw [checkPattern, h]
  rfl

theorem checkPattern_of_ok {g : Glob} (h : Glob.ofText text = .ok g) : checkPattern text = .ok () := by
  rw [checkPattern, h]

/-- **One by one.** The patterns are tried up to the first text that is none, whatever comes after it. -/
theorem forM_checkPattern_of_firstFault (h : FirstFault excludes text e) :
    excludes.forM checkPattern = .error (invalidPattern text e) := by
  induction excludes with
  | nil =>
      obtain ⟨before, after, hsplit, -⟩ := h
      exact absurd hsplit (by simp)
  | cons first rest ih =>
      rw [List.forM_eq_forM, List.forM_cons]
      rcases firstFault_cons_iff.mp h with ⟨rfl, hfault⟩ | ⟨⟨g, hg⟩, hrest⟩
      · rw [checkPattern_of_error hfault]
        rfl
      · rw [checkPattern_of_ok hg]
        exact ih hrest

theorem forM_checkPattern_of_arePatterns (h : ArePatterns excludes) : excludes.forM checkPattern = .ok () := by
  induction excludes with
  | nil => rfl
  | cons first rest ih =>
      obtain ⟨⟨g, hg⟩, hrest⟩ := List.forall_mem_cons.mp h
      rw [List.forM_eq_forM, List.forM_cons, checkPattern_of_ok hg]
      exact ih hrest

/-- **Into a list.** There is none if one of the texts is no pattern, and the first such text is told. -/
theorem parseGlobs_of_firstFault (h : FirstFault excludes text e) :
    parseGlobs excludes = .error (.pattern e) := by
  induction excludes with
  | nil =>
      obtain ⟨before, after, hsplit, -⟩ := h
      exact absurd hsplit (by simp)
  | cons first rest ih =>
      rw [parseGlobs_cons]
      rcases firstFault_cons_iff.mp h with ⟨rfl, hfault⟩ | ⟨⟨g, hg⟩, hrest⟩
      · rw [hfault]
      · rw [hg, ih hrest]
        rfl

/-! ## Failing -/

/-- For the pattern `text` the configuration is not valid, and no files are found and nothing is scanned
    with it. Neither the result nor a message tells of any file system or starting point. -/
structure FailsFor (c : Config) (text : String) (e : GlobError) : Prop where
  validation : c.validate =
    .error (.configuration ("invalid exclude pattern '" ++ text ++ "': " ++ e.message))
  discovery : ∀ fs root, Scan.findSources fs root c.scan.excludes = .quiet (.error (.pattern e))
  scan : ∀ w fs root, Scan.scanTreeBy w fs root c.scan = .quiet (.error (.pattern e))

theorem failsFor_of_firstFault {c : Config} (h : FirstFault c.scan.excludes text e) :
    c.FailsFor text e := by
  have hfind : ∀ fs root, Scan.findSources fs root c.scan.excludes = .quiet (.error (.pattern e)) := by
    intro fs root
    rw [Scan.findSources, parseGlobs_of_firstFault h]
  refine ⟨?_, hfind, ?_⟩
  · rw [validate_eq, forM_checkPattern_of_firstFault h]
    rfl
  · intro w fs root
    rw [Scan.scanTreeBy, hfind]
    rfl

theorem validate_of_arePatterns {c : Config} (h : ArePatterns c.scan.excludes) : c.validate = .ok c := by
  rw [validate_eq, forM_checkPattern_of_arePatterns h]
  rfl

/-- With patterns, looking for files fails at most for what the file system holds. -/
theorem findSources_ne_pattern (h : ArePatterns excludes) (fs : FileSystem) (root : FilePath)
    (e : GlobError) : (Scan.findSources fs root excludes).value ≠ .error (.pattern e) := by
  obtain ⟨globs, hglobs⟩ := exists_parseGlobs_iff.mpr h
  rw [Scan.findSources, hglobs]
  cases discover fs root with
  | error walkError => simp
  | ok ps => simp

theorem refusal?_ne_pattern (w : Scan.Workers) (jobs : Nat) (e : GlobError) :
    w.refusal? jobs ≠ some (.pattern e) := by
  unfold Scan.Workers.refusal?
  split
  · exact nofun
  · cases w.fault? jobs <;> simp

/-- With patterns, a scan fails at most for what the file system holds and for who is to scan. -/
theorem scanTreeBy_ne_pattern {settings : ScanSettings} (h : ArePatterns settings.excludes)
    (w : Scan.Workers) (fs : FileSystem) (root : FilePath) (e : GlobError) :
    (Scan.scanTreeBy w fs root settings).value ≠ .error (.pattern e) := by
  intro hscan
  obtain ⟨e', hvalue, hcause⟩ | ⟨ps, hvalue⟩ := Scan.scanTreeBy_cases w fs root settings
  · obtain rfl : e' = .pattern e := Except.error.inj (hvalue.symm.trans hscan)
    exact hcause.elim (findSources_ne_pattern h fs root e) (refusal?_ne_pattern w settings.jobs e)
  · cases hvalue.symm.trans hscan

/-- Failing validation is failing for a first text that is no pattern. -/
theorem validate_fails_iff {c : Config} :
    (∃ error, c.validate = .error error) ↔ ∃ text e, FirstFault c.scan.excludes text e := by
  constructor
  · rintro ⟨error, herror⟩
    refine (arePatterns_or_firstFault c.scan.excludes).resolve_left fun hpatterns => ?_
    cases herror.symm.trans (validate_of_arePatterns hpatterns)
  · rintro ⟨text, e, h⟩
    exact ⟨_, (failsFor_of_firstFault h).validation⟩

/-! ## Accepted configurations -/

/-- The configurations that can be had: from a text, from a file that is named, or by a search. -/
inductive Accepted : Config → Prop where
  | text {s : String} {c : Config} (h : ofText s = .ok c) : Accepted c
  | file {fs : FileSystem} {p : FilePath} {c : Config} (h : (loadFrom fs p).value = .ok c) : Accepted c
  | search (fs : FileSystem) (start : FilePath) : Accepted (searchFrom fs start).value
  | here (fs : FileSystem) : Accepted (searchHere fs).value

theorem arePatterns_of_ofText {s : String} {c : Config} (h : ofText s = .ok c) :
    ArePatterns c.scan.excludes := by
  unfold ofText at h
  split at h
  next d _ =>
    have hpatterns : ArePatterns d.scan.excludes :=
      (arePatterns_or_firstFault d.scan.excludes).resolve_right fun ⟨_, _, hfault⟩ => by
        cases h.symm.trans (failsFor_of_firstFault hfault).validation
    obtain rfl : d = c := Except.ok.inj ((validate_of_arePatterns hpatterns).symm.trans h)
    exact hpatterns
  next => cases h

theorem arePatterns_of_loadFrom {fs : FileSystem} {p : FilePath} {c : Config}
    (h : (loadFrom fs p).value = .ok c) : ArePatterns c.scan.excludes := by
  obtain ⟨s, -, hs⟩ := loadFrom_eq_ok_iff.mp h
  exact arePatterns_of_ofText hs

theorem arePatterns_searchFrom (fs : FileSystem) (start : FilePath) :
    ArePatterns (searchFrom fs start).value.scan.excludes := by
  obtain ⟨passed, c, hdecided⟩ := exists_decided fs (start.ancestors searchDepth)
  have hvalue : (searchFrom fs start).value = c := (firstUsable_of_decided hdecided).1
  rw [hvalue]
  generalize start.ancestors searchDepth = searched at hdecided
  cases hdecided with
  | nearest _ hload => exact arePatterns_of_loadFrom hload
  | nowhere _ => exact nofun

theorem Accepted.arePatterns {c : Config} (h : c.Accepted) : ArePatterns c.scan.excludes := by
  cases h with
  | text h => exact arePatterns_of_ofText h
  | file h => exact arePatterns_of_loadFrom h
  | search fs start => exact arePatterns_searchFrom fs start
  | here fs =>
      unfold searchHere
      cases fs.currentDirectory with
      | ok d => exact arePatterns_searchFrom fs d
      | error e => exact nofun

/-- A file is turned down for what the file system holds or as a configuration, never as a pattern. -/
theorem loadFrom_ne_pattern (fs : FileSystem) (p : FilePath) (e : GlobError) :
    (loadFrom fs p).value ≠ .error (.pattern e) := by
  unfold loadFrom
  cases fs.readText p with
  | error _ => exact nofun
  | ok s =>
      dsimp only
      cases hs : ofText s with
      | ok c => exact nofun
      | error e' =>
          obtain ⟨reason, rfl⟩ := ofText_eq_error hs
          exact nofun

end Config

/-! ## Scan commands -/

namespace ScanCommand

theorem accepted_baseConfig {c : ScanCommand} {fs : FileSystem} {base : Config}
    (h : (c.baseConfig fs).value = .ok base) : base.Accepted := by
  unfold baseConfig at h
  cases hconfig : c.config with
  | some p =>
      rw [hconfig] at h
      exact .file h
  | none =>
      rw [hconfig] at h
      obtain rfl : (Config.searchHere fs).value = base := Except.ok.inj h
      exact .here fs

theorem baseConfig_ne_pattern (c : ScanCommand) (fs : FileSystem) (e : GlobError) :
    (c.baseConfig fs).value ≠ .error (.pattern e) := by
  unfold baseConfig
  cases c.config with
  | some p =>
      exact Config.loadFrom_ne_pattern fs p e
  | none => exact nofun

/-- What fails at the end of a scan is the writing. -/
theorem exists_io_of_deliver {c : ScanCommand} {host : Host} {fs : FileSystem} {report : Writing Unit}
    {failure : Failure} (h : (c.deliver host fs report).failure = some failure) :
    ∃ e, failure.cause = .io e := by
  have hwriting : ∀ {result : Except IoError Unit}, CommandEnd.failureOf result = some failure →
      ∃ e, failure.cause = .io e := by
    rintro (e | _) hresult
    · obtain rfl := Option.some.inj hresult
      exact ⟨e, rfl⟩
    · cases hresult
  unfold deliver at h
  split at h
  · exact hwriting h
  · split at h
    case h_1 e _ =>
      obtain rfl := Option.some.inj h
      exact ⟨e, rfl⟩
    case h_2 => exact hwriting h

/-- **A scan command does not fail for a pattern.** -/
theorem runOn_ne_pattern {c : ScanCommand} {host : Host} {fs : FileSystem} {color : Bool} {failure : Failure}
    (h : (c.runOn host fs color).value.failure = some failure) (e : GlobError) :
    failure.cause ≠ .scan (.pattern e) := by
  unfold runOn at h
  rw [Logged.value_bind] at h
  cases hbase : (c.baseConfig fs).value with
  | error error =>
      rw [hbase] at h
      obtain rfl := Option.some.inj h
      intro hcause
      obtain rfl : error = .pattern e := Cause.scan.inj hcause
      exact baseConfig_ne_pattern c fs e hbase
  | ok base =>
      rw [hbase] at h
      simp only [Logged.value_bind] at h
      have hpatterns : ArePatterns (c.override base).scan.excludes := (accepted_baseConfig hbase).arePatterns
      cases hscan : (Scan.scanTreeBy host.workers fs c.path (c.override base).scan).value with
      | error error =>
          rw [hscan] at h
          obtain rfl := Option.some.inj h
          intro hcause
          obtain rfl : error = .pattern e := Cause.scan.inj hcause
          exact Config.scanTreeBy_ne_pattern hpatterns host.workers fs c.path e hscan
      | ok report =>
          rw [hscan] at h
          obtain ⟨error, hio⟩ := exists_io_of_deliver h
          rw [hio]
          exact nofun

end ScanCommand

/-! ## Agreement -/

/-- **Validation and discovery agree.** A configuration is not valid exactly if looking for files with its
    patterns, or scanning, fails for a pattern, whatever the file system and the starting point. All fail
    for the first text that is no pattern, with its fault, and before any file is looked at. With a
    configuration that was accepted nothing fails for a pattern. -/
theorem patterns_agreed :
    (∀ (c : Config) w fs root,
      ((∃ error, c.validate = .error error) ↔
        ∃ e, (Scan.findSources fs root c.scan.excludes).value = .error (.pattern e)) ∧
      ((∃ error, c.validate = .error error) ↔
        ∃ e, (Scan.scanTreeBy w fs root c.scan).value = .error (.pattern e))) ∧
    (∀ c : Config, (∃ error, c.validate = .error error) →
      ∃ text e, Config.FirstFault c.scan.excludes text e ∧ c.FailsFor text e) ∧
    (∀ c : Config, c.Accepted → ∀ w fs root e,
      (Scan.findSources fs root c.scan.excludes).value ≠ .error (.pattern e) ∧
        (Scan.scanTreeBy w fs root c.scan).value ≠ .error (.pattern e)) ∧
    ∀ (c : ScanCommand) host fs color failure, (c.runOn host fs color).value.failure = some failure →
      ∀ e, failure.cause ≠ .scan (.pattern e) := by
  refine ⟨fun c w fs root => ?_, fun c hc => ?_, fun c hc w fs root e => ?_, fun c host fs color failure h =>
    ScanCommand.runOn_ne_pattern h⟩
  · rw [Config.validate_fails_iff]
    rcases Config.arePatterns_or_firstFault c.scan.excludes with hpatterns | ⟨text, e, hfault⟩
    · have hnone : ¬ ∃ text e, Config.FirstFault c.scan.excludes text e := fun ⟨_, _, hfault⟩ =>
        Config.not_arePatterns_of_firstFault hfault hpatterns
      refine ⟨iff_of_false hnone ?_, iff_of_false hnone ?_⟩
      · rintro ⟨e, he⟩
        exact Config.findSources_ne_pattern hpatterns fs root e he
      · rintro ⟨e, he⟩
        exact Config.scanTreeBy_ne_pattern hpatterns w fs root e he
    · have hfails := Config.failsFor_of_firstFault hfault
      refine ⟨iff_of_true ⟨text, e, hfault⟩ ⟨e, ?_⟩, iff_of_true ⟨text, e, hfault⟩ ⟨e, ?_⟩⟩
      · rw [hfails.discovery, Logged.value_quiet]
      · rw [hfails.scan, Logged.value_quiet]
  · obtain ⟨text, e, hfault⟩ := Config.validate_fails_iff.mp hc
    exact ⟨text, e, hfault, Config.failsFor_of_firstFault hfault⟩
  · exact ⟨Config.findSources_ne_pattern hc.arePatterns fs root e,
      Config.scanTreeBy_ne_pattern hc.arePatterns w fs root e⟩

/-- A configuration with three texts to exclude, of which the first one is a pattern. -/
def faultyExcludes : Config := ⟨⟨["**/build/**", "a**b", "[x"], 0⟩, .default⟩

/-- A scan with a configuration file that cannot be read as one. -/
def scanStacked : ScanCommand := ⟨⟨"/m"⟩, none, none, some (Config.fileIn ⟨"/m/n"⟩), none, false⟩

theorem patterns_agreed_faulty :
    Config.FirstFault faultyExcludes.scan.excludes "a**b" ⟨0, .component⟩ ∧
    (∃ text e, Config.FirstFault faultyExcludes.scan.excludes text e ∧ faultyExcludes.FailsFor text e) ∧
    (∃ e, (Scan.findSources Config.stackedFiles ⟨"/m"⟩ faultyExcludes.scan.excludes).value =
      .error (.pattern e)) ∧
    (∀ e, (Scan.scanTree Config.stackedFiles ⟨"/m"⟩
      (Config.searchFrom Config.stackedFiles ⟨"/m"⟩).value.scan).value ≠ .error (.pattern e)) ∧
    ∃ failure, (scanStacked.runOn .able Config.stackedFiles false).value.failure = some failure ∧
      ∀ e, failure.cause ≠ .scan (.pattern e) := by
  obtain ⟨hagree, hfails, haccepted, hcommand⟩ := patterns_agreed
  have hinvalid : ∃ error, faultyExcludes.validate = .error error := ⟨_, rfl⟩
  have hload : (Config.loadFrom Config.stackedFiles (Config.fileIn ⟨"/m/n"⟩)).value =
      .error Config.unreadable := by decide +kernel
  have hrun : (scanStacked.runOn .able Config.stackedFiles false).value.failure =
      some (.ofScan Config.unreadable) := by
    show (ScanCommand.runOn _ _ _ _).value.failure = _
    unfold ScanCommand.runOn
    rw [Logged.value_bind, show (scanStacked.baseConfig Config.stackedFiles).value = _ from hload]
    rfl
  refine ⟨⟨["**/build/**"], ["[x"], rfl, ?_, by decide +kernel⟩, hfails _ hinvalid,
    (hagree faultyExcludes .inTurn _ _).1.mp hinvalid, fun e => ?_, _, hrun, hcommand _ _ _ _ _ hrun⟩
  · show ArePatterns ["**/build/**"]
    exact Config.exists_parseGlobs_iff.mp ⟨_, rfl⟩
  · exact (haccepted _ (.search Config.stackedFiles ⟨"/m"⟩) .inTurn _ _ e).2

end AccessorScan
