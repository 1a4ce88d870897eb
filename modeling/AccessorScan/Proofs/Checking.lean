import AccessorScan.Command.Basic
import AccessorScan.Proofs.Places
import AccessorScan.Proofs.Scanning
import Mathlib.Data.List.Forall2

/-!
# `Proofs.Checking` — checking one method tells what a scan tells

Checking a method reads its file as a scan does and judges it in the same way. What a scan puts into its
report on the file, a check gives as its result: the verdict on the first method of that name, the failure to
read the file, or that there is no such method. A file is read alike under all paths that lead to it.

## Contents
- `CheckAgrees`: a check and a report on its file tell the same.
- `checkMethod_value`: what a check comes to.
- `checkAgrees_ofReading`, `check_agrees_scan`.
-/

namespace AccessorScan

/-- This verdict is the first one on a method of that name. -/
def FirstVerdict (vs : List Verdict) (method : String) (v : Verdict) : Prop :=
  ∃ before after, vs = before ++ v :: after ∧ v.qualifiedName = method ∧
    ∀ w ∈ before, w.qualifiedName ≠ method

/-- What checking a method of a file comes to, and what a report on the file tells of the method. -/
structure CheckAgrees (fs : FileSystem) (file : FilePath) (method : String) (r : FileReport) :
    Prop where
  decided : ∀ b, (checkMethod fs file method).value = .ok b ↔
    r.error = none ∧ ∃ v, FirstVerdict r.methods method v ∧ v.isAccessor = b
  unreadable : (∃ context e, (checkMethod fs file method).value = .error ⟨context, .io e⟩) ↔
    r.error.isSome = true
  unknown :
    (∃ context, (checkMethod fs file method).value = .error ⟨context, .scan (.notFound method)⟩) ↔
      (∃ source, fs.readText file = .ok source) ∧ ∀ v ∈ r.methods, v.qualifiedName ≠ method

/-! ## Checking -/

theorem findVerdict?_eq_some_iff {vs : List Verdict} {method : String} {v : Verdict} :
    findVerdict? vs method = some v ↔ FirstVerdict vs method v := by
  rw [findVerdict?, List.find?_eq_some_iff_append]
  constructor
  · rintro ⟨hname, before, after, hsplit, hbefore⟩
    exact ⟨before, after, hsplit, beq_iff_eq.mp hname, fun w hw => by simpa using hbefore w hw⟩
  · rintro ⟨before, after, hsplit, hname, hbefore⟩
    exact ⟨beq_iff_eq.mpr hname, before, after, hsplit, fun w hw => by simpa using hbefore w hw⟩

theorem findVerdict?_eq_none_iff {vs : List Verdict} {method : String} :
    findVerdict? vs method = none ↔ ∀ v ∈ vs, v.qualifiedName ≠ method := by
  simp [findVerdict?, List.find?_eq_none]

theorem checkMethod_value (fs : FileSystem) (file : FilePath) (method : String) :
    (checkMethod fs file method).value =
      match fs.readText file with
      | .error e => .error ⟨["Failed to read " ++ file.text], .io e⟩
      | .ok source =>
          match findVerdict? (verdicts (SourceModel.ofSource source).types) method with
          | some v => .ok v.isAccessor
          | none =>
              .error ⟨["No method " ++ method ++ " in " ++ file.text], .scan (.notFound method)⟩ := by
  unfold checkMethod
  cases fs.readText file with
  | error e => rfl
  | ok source =>
      have hmethods : (Scan.scanSource source file).value.methods =
          verdicts (SourceModel.ofSource source).types := rfl
      simp only [Logged.value_bind, hmethods]
      unfold Scan.findVerdict
      cases findVerdict? (verdicts (SourceModel.ofSource source).types) method with
      | some v => rfl
      | none => rfl

/-- A check agrees with the report on any path that is read like the file. -/
theorem checkAgrees_ofReading {fs : FileSystem} {file p : FilePath} (method : String)
    (hread : fs.readText p = fs.readText file) :
    CheckAgrees fs file method (FileReport.ofReading p (fs.readText p)) := by
  have hvalue := checkMethod_value fs file method
  rw [hread]
  cases hfile : fs.readText file with
  | error e =>
      rw [hfile] at hvalue
      constructor <;> simp [hvalue, hfile, FileReport.ofReading]
  | ok source =>
      simp only [hfile] at hvalue
      show CheckAgrees fs file method ⟨p.text, verdicts (SourceModel.ofSource source).types, none⟩
      cases hfind : findVerdict? (verdicts (SourceModel.ofSource source).types) method with
      | some v =>
          rw [hfind] at hvalue
          constructor <;>
            simp [hvalue, hfile, ← findVerdict?_eq_some_iff, ← findVerdict?_eq_none_iff, hfind]
      | none =>
          rw [hfind] at hvalue
          have hnone := findVerdict?_eq_none_iff.mp hfind
          constructor
          case decided => simp [hvalue, ← findVerdict?_eq_some_iff, hfind]
          case unreadable => simp [hvalue]
          case unknown => exact ⟨fun _ => ⟨⟨source, hfile⟩, hnone⟩, fun _ => ⟨_, hvalue⟩⟩

/-! ## The file under other paths -/

namespace Scan

/-- A scan of a file finds this file, whatever its name and the patterns. -/
theorem findSources_of_isFile {fs : FileSystem} {file : FilePath} (hfile : fs.isFile file = true)
    {excludes : List String} {globs : List Glob} (hglobs : Config.parseGlobs excludes = .ok globs) :
    (findSources fs file excludes).value = .ok [file] := by
  simp only [findSources, hglobs, discover, hfile, if_true, splitExcluded]

end Scan

/-- **Checking agrees with scanning.** A check gives what the report on its file tells of the first method
    of that name; it fails to read the file where the report has an error, and it finds no such method where
    the file is read and the report has none. This holds of the report on the file alone, of the only report
    in a scan of the file, and of the report under any path that leads to the file in any other scan. -/
theorem check_agrees_scan (fs : FileSystem) (file : FilePath) (method : String) :
    CheckAgrees fs file method (Scan.scanFile fs file).value ∧
    (fs.isFile file = true → ∀ settings globs, Config.parseGlobs settings.excludes = .ok globs →
      ∃ report r, (Scan.scanTree fs file settings).value = .ok report ∧ report.files = [r] ∧
        r.path = file.text ∧ CheckAgrees fs file method r) ∧
    ∀ root settings paths p, (Scan.findSources fs root settings.excludes).value = .ok paths →
      p ∈ paths → fs.locate p = fs.locate file →
      ∃ report, (Scan.scanTree fs root settings).value = .ok report ∧
        (∃ r ∈ report.files, r.path = p.text) ∧
        ∀ r ∈ report.files, fs.locate ⟨r.path⟩ = fs.locate file → CheckAgrees fs file method r := by
  refine ⟨?_, ?_, ?_⟩
  · rw [Scan.scanFile_value]
    exact checkAgrees_ofReading method rfl
  · intro hfile settings globs hglobs
    have hfound := Scan.findSources_of_isFile hfile hglobs
    exact ⟨_, _, Scan.scanTree_eq_ok_iff.mpr ⟨_, hfound, rfl⟩, rfl,
      FileReport.path_ofReading _ _, checkAgrees_ofReading method rfl⟩
  · intro root settings paths p hpaths hp hplace
    refine ⟨_, Scan.scanTree_eq_ok_iff.mpr ⟨_, hpaths, rfl⟩,
      ⟨_, List.mem_map.mpr ⟨p, hp, rfl⟩, FileReport.path_ofReading _ _⟩, ?_⟩
    intro r hr hsame
    obtain ⟨q, -, rfl⟩ := List.mem_map.mp hr
    rw [FileReport.path_ofReading] at hsame
    exact checkAgrees_ofReading method (FileSystem.readText_of_locate hsame)

/-- A directory in a directory, with a source in which a method is overloaded. -/
def overloadedFiles : FileSystem :=
  let source := "class T \x7b private int a; int getA() \x7b return a; \x7d int getA(int a) \x7b return a; \x7d \x7d"
  ⟨.directory [("src", .directory [("T.java", .file source.toUTF8)])], .at ["src"]⟩

/-- The report on this source: the first method of the name is a getter, the second one is none. -/
def overloadedReport (path : String) : FileReport :=
  ⟨path, [⟨"T", "getA", 1, false, some (.getter "a")⟩, ⟨"T", "getA", 1, false, none⟩], none⟩

theorem check_agrees_scan_overloaded :
    let file : FilePath := ⟨"../src//T.java"⟩
    overloadedFiles.isFile file = true ∧ Config.parseGlobs [] = .ok [] ∧
    (Scan.scanFile overloadedFiles file).value = overloadedReport file.text ∧
    (checkMethod overloadedFiles file "T.getA").value = .ok true ∧
    CheckAgrees overloadedFiles file "T.getA" (Scan.scanFile overloadedFiles file).value ∧
    (∃ report r, (Scan.scanTree overloadedFiles file ⟨[], 0⟩).value = .ok report ∧
      report.files = [r] ∧ r.path = file.text ∧ CheckAgrees overloadedFiles file "T.getA" r) ∧
    (Scan.findSources overloadedFiles ⟨"/"⟩ []).value = .ok [⟨"/src/T.java"⟩] ∧
    overloadedFiles.locate ⟨"/src/T.java"⟩ = overloadedFiles.locate file ∧
    ∃ report, (Scan.scanTree overloadedFiles ⟨"/"⟩ ⟨[], 0⟩).value = .ok report ∧
      (∃ r ∈ report.files, r.path = "/src/T.java") ∧
      ∀ r ∈ report.files, overloadedFiles.locate ⟨r.path⟩ = overloadedFiles.locate file →
        CheckAgrees overloadedFiles file "T.getA" r := by
  intro file
  have hfound : (Scan.findSources overloadedFiles ⟨"/"⟩ []).value = .ok [⟨"/src/T.java"⟩] :=
    Scan.findSources_of_walk (by decide) rfl rfl rfl (by rfl) (by decide +kernel)
  have hfile : overloadedFiles.isFile file = true := by decide +kernel
  have hplace : overloadedFiles.locate ⟨"/src/T.java"⟩ = overloadedFiles.locate file := by
    decide +kernel
  have hreport : (Scan.scanFile overloadedFiles file).value = overloadedReport file.text := by
    decide +kernel
  obtain ⟨halone, hsingle, hlisted⟩ := check_agrees_scan overloadedFiles file "T.getA"
  refine ⟨hfile, rfl, hreport, (halone.decided true).mpr ?_, halone,
    hsingle hfile ⟨[], 0⟩ [] rfl, hfound, hplace, ?_⟩
  · rw [hreport]
    exact ⟨rfl, _, ⟨[], _, rfl, by decide, by simp⟩, rfl⟩
  · exact hlisted ⟨"/"⟩ ⟨[], 0⟩ _ _ hfound (List.mem_singleton_self _) hplace

end AccessorScan
