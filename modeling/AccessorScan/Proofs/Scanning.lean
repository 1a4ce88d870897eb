import AccessorScan.Scan.Basic
import Mathlib.Data.List.Basic

/-!
# `Proofs.Scanning` — what a scan comes to

The messages aside, a scan finds its files and judges each of them by what reading it gives. Workers may
come by the files in any order: every report is put in the place of its file.

## Contents
- `FileReport.ofReading`: the report on a file, from what reading it gave.
- `Scan.findSources_of_walk`: what is found below a directory.
- `Scan.collect_of_perm`: reports that are made in any order, put in order.
- `Scan.scanFile_value`, `Scan.scanTreeBy_value`, `Scan.scanTree_value`: the values of scans.
- `Scan.scanTree_eq_ok_iff`: the reports that scans end with.
-/

namespace AccessorScan

/-- The report on a file, from what reading it gave. -/
def FileReport.ofReading (p : FilePath) : Except IoError String → FileReport
  | .ok source => .ofModel p.text (.ofSource source)
  | .error e => ⟨p.text, [], some (Scan.unreadable p e).message⟩

namespace FileReport

theorem path_ofReading (p : FilePath) (reading : Except IoError String) :
    (ofReading p reading).path = p.text := by
  cases reading <;> rfl

/-- A report with an error has no methods. -/
theorem methods_ofReading_of_error {p : FilePath} {reading : Except IoError String}
    (h : (ofReading p reading).error.isSome = true) : (ofReading p reading).methods = [] := by
  cases reading with
  | ok source => cases h
  | error e => rfl

end FileReport

theorem Config.parseGlobs_nil : parseGlobs [] = .ok [] := rfl

namespace Scan

/-- Below a directory the files are found that are reached from it, once they are in order. -/
theorem findSources_of_walk {fs : FileSystem} {root : FilePath} {names : List String}
    {entries : List (String × FileNode)} {ps : List FilePath} (hinput : standsForInput root = false)
    (hlocate : fs.locate root = .ok (.at names))
    (hnode : fs.root.get? names = some (.directory entries))
    (hfaults : (levelsAbove fs.root names).reverse.flatMap (fun d => d.2.faultMessages d.1) = [])
    (hwalk : walk ((levelsAbove fs.root names).map (·.2)) root names (.directory entries) = ps)
    (hsorted : ps.Pairwise fun p q => !q.before p) :
    (findSources fs root []).value = .ok ps := by
  have hfile : fs.isFile root = false := by
    simp only [FileSystem.isFile, FileSystem.lookup, hlocate, FileSystem.node?, bind, Except.bind,
      hnode]
    rfl
  have hdiscover : discover fs root = .ok ps := by
    have hsort : sortPaths ps = ps := List.mergeSort_of_pairwise hsorted
    simp only [discover, hfile, hinput, hlocate, FileSystem.node?, hnode, hfaults, hwalk, hsort,
      Bool.false_eq_true, if_false, List.isEmpty_nil, if_true]
  have hleft : (ps.partition fun _ => true).1 = ps := by
    rw [List.partition_eq_filter_filter]
    exact List.filter_eq_self.mpr fun _ _ => rfl
  simp only [findSources, Config.parseGlobs_nil, hdiscover, splitExcluded, hfile, Bool.false_eq_true, if_false,
    List.any_nil, Bool.not_false, hleft]

/-! ## Any order -/

/-- A report that was made is found under the place of its file. -/
theorem lookup_filterMap (made : Nat → Option FileReport) (places : List Nat) (n : Nat) :
    (places.filterMap fun place => (made place).map fun r => (place, r)).lookup n =
      if n ∈ places then made n else none := by
  induction places with
  | nil => rfl
  | cons place places ih =>
      rw [List.filterMap_cons]
      by_cases hplace : n = place
      · subst hplace
        rw [if_pos List.mem_cons_self]
        cases hmade : made n with
        | some r => exact List.lookup_cons_self
        | none => rw [Option.map_none, ih, hmade, ite_self]
      · have hmem : (n ∈ place :: places) = (n ∈ places) := by simp [hplace]
        simp only [hmem, ← ih]
        cases made place with
        | some r => rw [Option.map_some, List.lookup_cons, beq_false_of_ne hplace]
        | none => rfl

/-- The items of a list by their places. -/
theorem filterMap_range {α β : Type} (xs : List α) (f : α → β) :
    ((List.range xs.length).filterMap fun n => xs[n]?.map f) = xs.map f := by
  induction xs with
  | nil => rfl
  | cons x xs ih =>
      rw [List.length_cons, List.range_succ_eq_map, List.filterMap_cons, List.filterMap_map, List.map_cons]
      exact congrArg (f x :: ·) ih

/-- **The order of work does not show.** Reports that are made in any order come out in that of the files. -/
theorem collect_of_perm {ps : List FilePath} {places : List Nat}
    (hplaces : places.Perm (List.range ps.length)) (judge : FilePath → FileReport) :
    collect (places.filterMap fun n => ps[n]?.map fun p => (n, judge p)) ps.length = ps.map judge := by
  have hlookup := lookup_filterMap (fun n => ps[n]?.map judge) places
  simp only [Option.map_map] at hlookup
  rw [← filterMap_range ps judge, collect]
  refine List.filterMap_congr fun n hn => ?_
  exact (hlookup n).trans (if_pos (hplaces.mem_iff.mpr hn))

/-! ## Values -/

theorem scanFile_value (fs : FileSystem) (p : FilePath) :
    (scanFile fs p).value = .ofReading p (fs.readText p) := by
  unfold scanFile
  rw [Logged.value_bind]
  cases fs.readText p <;> rfl

/-- The report on these files. -/
def reportOn (fs : FileSystem) (root : FilePath) (ps : List FilePath) : ScanReport :=
  let files := ps.map fun p => FileReport.ofReading p (fs.readText p)
  ⟨root.text, files, Summary.ofFiles files⟩

theorem value_scanPlace (fs : FileSystem) (ps : List FilePath) (n : Nat) :
    (scanPlace fs ps n).map Logged.value =
      ps[n]?.map fun p => (n, FileReport.ofReading p (fs.readText p)) := by
  rw [scanPlace, Option.map_map]
  refine congrArg (ps[n]?.map ·) (funext fun p => ?_)
  rw [← scanFile_value]
  rfl

theorem scanFiles_value (w : Workers) (jobs : Nat) (fs : FileSystem) (root : FilePath)
    (ps : List FilePath) : (scanFiles w jobs fs root ps).value = reportOn fs root ps := by
  have hdone : (Logged.sequence ((w.order jobs ps.length).filterMap (scanPlace fs ps))).value =
      (w.order jobs ps.length).filterMap fun n =>
        ps[n]?.map fun p => (n, FileReport.ofReading p (fs.readText p)) := by
    simp only [← value_scanPlace]
    exact List.map_filterMap
  unfold scanFiles
  simp only [Logged.value_bind, Logged.value_pure, hdone, collect_of_perm (w.order_perm jobs ps.length)]
  rfl

/-- **Whoever scans.** A scan fails where its files cannot be found, or else where its workers cannot be had,
    and otherwise reports on all files. -/
theorem scanTreeBy_value (w : Workers) (fs : FileSystem) (root : FilePath) (settings : ScanSettings) :
    (scanTreeBy w fs root settings).value =
      (findSources fs root settings.excludes).value.bind fun ps =>
        match w.refusal? settings.jobs with
        | some e => .error e
        | none => .ok (reportOn fs root ps) := by
  unfold scanTreeBy
  rw [Logged.value_bind]
  cases (findSources fs root settings.excludes).value with
  | error e => rfl
  | ok ps =>
      simp only [Logged.value_bind]
      cases w.refusal? settings.jobs with
      | some e => rfl
      | none =>
          simp only [Logged.value_bind, Logged.value_pure, scanFiles_value]
          rfl

theorem scanTreeBy_cases (w : Workers) (fs : FileSystem) (root : FilePath) (settings : ScanSettings) :
    (∃ e, (scanTreeBy w fs root settings).value = .error e ∧
      ((findSources fs root settings.excludes).value = .error e ∨ w.refusal? settings.jobs = some e)) ∨
    ∃ ps, (scanTreeBy w fs root settings).value = .ok (reportOn fs root ps) := by
  rw [scanTreeBy_value]
  cases (findSources fs root settings.excludes).value with
  | error e => exact .inl ⟨e, rfl, .inl rfl⟩
  | ok ps =>
      cases w.refusal? settings.jobs with
      | some e => exact .inl ⟨e, rfl, .inr rfl⟩
      | none => exact .inr ⟨ps, rfl⟩

theorem refusal?_inTurn (jobs : Nat) : Workers.inTurn.refusal? jobs = none := ite_self none

/-- A scan fails where its files cannot be found, and otherwise reports on all of them. -/
theorem scanTree_value (fs : FileSystem) (root : FilePath) (settings : ScanSettings) :
    (scanTree fs root settings).value =
      (findSources fs root settings.excludes).value.map (reportOn fs root) := by
  rw [scanTree, scanTreeBy_value, refusal?_inTurn]
  cases (findSources fs root settings.excludes).value <;> rfl

theorem scanTree_eq_ok_iff {fs : FileSystem} {root : FilePath} {settings : ScanSettings}
    {r : ScanReport} :
    (scanTree fs root settings).value = .ok r ↔
      ∃ ps, (findSources fs root settings.excludes).value = .ok ps ∧ reportOn fs root ps = r := by
  rw [scanTree_value]
  cases (findSources fs root settings.excludes).value <;> simp [Except.map]

end Scan

end AccessorScan
