import AccessorScan.Proofs.Listing
import AccessorScan.Proofs.Scanning
import Mathlib.Data.List.Perm.Basic

/-!
# `Proofs.Tallies` — summary, report and listing agree

A summary is a sum over the files of a scan, a report is a list of them, and a listing goes through that
list once more with filters of its own. The three are tied by what can be counted in a list of verdicts.

## Contents
- `Verdict.isGetter`, `Verdict.isSetter`: the two sorts of accessor.
- `Summary.ofFiles_eq`: a summary as counts over the verdicts of all files; `ofFiles_append`,
  `ofFiles_perm`.
- `ScanReport.Tallied`, `ScanReport.ListedBy`, `report_tallied`.
-/

namespace AccessorScan

/-! ## Sorts of accessor -/

namespace Verdict

def isGetter (v : Verdict) : Bool :=
  match v.accessor with
  | some (.getter _) => true
  | _ => false

def isSetter (v : Verdict) : Bool :=
  match v.accessor with
  | some (.setter _) => true
  | _ => false

/-- Every accessor is a getter or a setter, and none is both. -/
theorem countP_isGetter_add_isSetter (vs : List Verdict) :
    vs.countP isGetter + vs.countP isSetter = vs.countP isAccessor := by
  induction vs with
  | nil => rfl
  | cons v vs ih =>
      have hv : (if v.isGetter then 1 else 0) + (if v.isSetter then 1 else 0) =
          if v.isAccessor then 1 else 0 := by
        unfold isGetter isSetter isAccessor
        rcases v.accessor with _ | _ | _ <;> rfl
      simp only [List.countP_cons]
      omega

end Verdict

/-! ## Sums -/

namespace Summary

theorem zero_add (s : Summary) : zero.add s = s := by
  simp only [add, zero, Nat.zero_add]

theorem add_assoc (s t u : Summary) : (s.add t).add u = s.add (t.add u) := by
  simp only [add, Nat.add_assoc]

/-- A sum that starts from somewhere adds to that. -/
theorem foldl_add (l : List Summary) (s : Summary) : l.foldl add s = s.add (l.foldl add zero) := by
  induction l generalizing s with
  | nil => rfl
  | cons t l ih =>
      rw [List.foldl_cons, List.foldl_cons, ih, ih (zero.add t), zero_add, add_assoc]

theorem foldl_cons (t : Summary) (l : List Summary) :
    (t :: l).foldl add zero = t.add (l.foldl add zero) := by
  rw [List.foldl_cons, zero_add, foldl_add]

theorem ofVerdict_eq (v : Verdict) :
    ofVerdict v = ⟨0, 0, 1, if v.isGetter then 1 else 0, if v.isSetter then 1 else 0⟩ := by
  unfold ofVerdict Verdict.isGetter Verdict.isSetter
  rcases v.accessor with _ | _ | _ <;> rfl

theorem ofFile_eq (r : FileReport) :
    ofFile r = ⟨1, if r.error.isSome then 1 else 0, r.methods.length,
      r.methods.countP Verdict.isGetter, r.methods.countP Verdict.isSetter⟩ := by
  have hverdicts : ∀ vs : List Verdict, (vs.map ofVerdict).foldl add zero =
      ⟨0, 0, vs.length, vs.countP Verdict.isGetter, vs.countP Verdict.isSetter⟩ := by
    intro vs
    induction vs with
    | nil => rfl
    | cons v vs ih =>
        rw [List.map_cons, foldl_cons, ih, ofVerdict_eq]
        simp only [add, List.length_cons, List.countP_cons, Nat.add_comm]
  rw [ofFile, foldl_add, hverdicts]
  simp only [add, Nat.add_zero, Nat.zero_add]

/-- **A summary counts.** Its numbers are those of the files, of the files with an error, and of the
    verdicts, getters and setters in all files. -/
theorem ofFiles_eq (files : List FileReport) :
    ofFiles files =
      ⟨files.length, files.countP fun r => r.error.isSome,
        (files.flatMap FileReport.methods).length,
        (files.flatMap FileReport.methods).countP Verdict.isGetter,
        (files.flatMap FileReport.methods).countP Verdict.isSetter⟩ := by
  unfold ofFiles
  induction files with
  | nil => rfl
  | cons r files ih =>
      rw [List.map_cons, foldl_cons, ih, ofFile_eq]
      simp only [add, List.length_cons, List.countP_cons, List.flatMap_cons, List.length_append,
        List.countP_append, Nat.add_comm]

theorem ofFiles_append (a b : List FileReport) : ofFiles (a ++ b) = (ofFiles a).add (ofFiles b) := by
  simp only [ofFiles_eq, add, List.length_append, List.countP_append, List.flatMap_append]

theorem ofFiles_perm {a b : List FileReport} (h : a.Perm b) : ofFiles a = ofFiles b := by
  have hverdicts : (a.flatMap FileReport.methods).Perm (b.flatMap FileReport.methods) :=
    h.flatMap_right FileReport.methods
  rw [ofFiles_eq, ofFiles_eq, h.length_eq, h.countP_eq, hverdicts.length_eq, hverdicts.countP_eq,
    hverdicts.countP_eq]

end Summary

/-! ## Agreement -/

namespace ScanReport

/-- The summary of a report counts what is in the report, and only files without methods have errors. -/
structure Tallied (r : ScanReport) : Prop where
  files : r.summary.files = r.files.length
  failedFiles : r.summary.failedFiles = (r.files.filter fun f => f.error.isSome).length
  methods_of_error : ∀ f ∈ r.files, f.error.isSome = true → f.methods = []
  methods : r.summary.methods = (r.files.flatMap FileReport.methods).length
  getters : r.summary.getters = ((r.files.flatMap FileReport.methods).filter Verdict.isGetter).length
  setters : r.summary.setters = ((r.files.flatMap FileReport.methods).filter Verdict.isSetter).length
  accessors_le : r.summary.getters + r.summary.setters ≤ r.summary.methods
  accessors : r.summary.methods < countLimit →
    r.summary.accessors = r.summary.getters + r.summary.setters

/-- A listing of a report, as a sink is left with it, has a failure row for each file with an error, a heading
    for each file of which something is shown, and a method row for each verdict, or for each accessor; every
    row once, in the order of the report, and the methods under the paths of their files. -/
structure ListedBy (r : ScanReport) (l : Listing) : Prop where
  written : r.writeTo ⟨.terminal, l.showAll, l.color⟩ .unlimited =
    (.ok (), { Sink.unlimited with taken := utf8 (l.spelled r) })
  received : ∀ s, r.writeTo ⟨.terminal, l.showAll, l.color⟩ s = s.receive (utf8 (l.spelled r))
  failures : (l.rows r.files).filterMap Listing.Row.failure? =
    r.files.filterMap fun f => f.error.map fun e => (f.path, e)
  headings : (l.rows r.files).filterMap Listing.Row.heading? =
    (r.files.filter fun f =>
      f.error.isNone && !(f.methods.filter fun v => l.showAll || v.isAccessor).isEmpty).map FileReport.path
  failures_length :
    ((l.rows r.files).filterMap Listing.Row.failure?).length = r.summary.failedFiles
  methods : Listing.underHeadings none (l.rows r.files) =
    r.files.flatMap fun f =>
      (f.methods.filter fun v => l.showAll || v.isAccessor).map fun v => (some f.path, v)
  methods_length : (Listing.underHeadings none (l.rows r.files)).length =
    if l.showAll then r.summary.methods else r.summary.getters + r.summary.setters

theorem tallied_of_ofFiles {r : ScanReport} (hsummary : r.summary = Summary.ofFiles r.files)
    (hempty : ∀ f ∈ r.files, f.error.isSome = true → f.methods = []) : r.Tallied := by
  rw [Summary.ofFiles_eq] at hsummary
  have hle : r.summary.getters + r.summary.setters ≤ r.summary.methods := by
    rw [hsummary]
    show List.countP _ _ + List.countP _ _ ≤ _
    rw [Verdict.countP_isGetter_add_isSetter]
    exact List.countP_le_length
  refine ⟨?_, ?_, hempty, ?_, ?_, ?_, hle, fun hlimit => ?_⟩
  · rw [hsummary]
  · rw [hsummary, ← List.countP_eq_length_filter]
  · rw [hsummary]
  · rw [hsummary, ← List.countP_eq_length_filter]
  · rw [hsummary, ← List.countP_eq_length_filter]
  · exact Nat.mod_eq_of_lt (Nat.lt_of_le_of_lt hle hlimit)

theorem listedBy_of_tallied {r : ScanReport} (h : r.Tallied) (l : Listing) : r.ListedBy l := by
  have hmethods : Listing.underHeadings none (l.rows r.files) =
      r.files.flatMap fun f =>
        (f.methods.filter fun v => l.showAll || v.isAccessor).map fun v => (some f.path, v) := by
    rw [Listing.underHeadings_rows]
    refine List.flatMap_congr fun f hf => ?_
    split
    · rename_i herror
      rw [h.methods_of_error f hf herror]
      rfl
    · rfl
  refine ⟨r.writeTo_listing l .unlimited, r.writeTo_listing l, l.failures_rows r.files,
    l.headings_rows r.files, ?_, hmethods, ?_⟩
  · rw [l.failures_rows, h.failedFiles, List.length_filterMap_eq_countP, ← List.countP_eq_length_filter]
    exact List.countP_congr fun f _ => by rw [Option.isSome_map]
  · have hlength : (Listing.underHeadings none (l.rows r.files)).length =
        ((r.files.flatMap FileReport.methods).filter fun v => l.showAll || v.isAccessor).length := by
      rw [hmethods, List.filter_flatMap, List.length_flatMap, List.length_flatMap]
      simp only [List.length_map]
    rw [hlength, h.methods, h.getters, h.setters, ← List.countP_eq_length_filter,
      ← List.countP_eq_length_filter, ← List.countP_eq_length_filter,
      Verdict.countP_isGetter_add_isSetter]
    cases l.showAll <;> simp

/-- **Summary, report and listing agree.** In every report that a scan makes the summary counts what is
    in the files, and every listing of it has a row for each of them. Summaries of two scans add up, and
    the order of the files makes no difference to them. -/
theorem report_tallied :
    (∀ w fs root settings r, (Scan.scanTreeBy w fs root settings).value = .ok r →
      r.Tallied ∧ ∀ l, r.ListedBy l) ∧
    (∀ a b, Summary.ofFiles (a ++ b) = (Summary.ofFiles a).add (Summary.ofFiles b)) ∧
    ∀ a b, a.Perm b → Summary.ofFiles a = Summary.ofFiles b := by
  refine ⟨fun w fs root settings r h => ?_, Summary.ofFiles_append, fun a b => Summary.ofFiles_perm⟩
  obtain ⟨ps, rfl⟩ : ∃ ps, Scan.reportOn fs root ps = r := by
    obtain ⟨e, hfailed, -⟩ | ⟨ps, hvalue⟩ := Scan.scanTreeBy_cases w fs root settings
    · cases hfailed.symm.trans h
    · exact ⟨ps, Except.ok.inj (hvalue.symm.trans h)⟩
  have htallied : (Scan.reportOn fs root ps).Tallied := by
    refine tallied_of_ofFiles rfl fun f hf => ?_
    obtain ⟨p, -, rfl⟩ := List.mem_map.mp hf
    exact FileReport.methods_ofReading_of_error
  exact ⟨htallied, listedBy_of_tallied htallied⟩

/-- A directory with a source of two methods, one that declares nothing and one that is no text. -/
def mixedFiles : FileSystem :=
  let source := "class A \x7b private int b; int getB() \x7b return b; \x7d void f() \x7b\x7d \x7d"
  ⟨.directory [("A.java", .file source.toUTF8), ("B.java", .file ByteArray.empty),
    ("C.java", .file ⟨#[255]⟩)], .at []⟩

def mixedReport : ScanReport :=
  ⟨".",
    [⟨"./A.java", [⟨"A", "getB", 1, false, some (.getter "b")⟩, ⟨"A", "f", 1, false, none⟩], none⟩,
      ⟨"./B.java", [], none⟩,
      ⟨"./C.java", [], some "File system error: Failed to read source file"⟩],
    ⟨3, 1, 2, 1, 0⟩⟩

def mixedListing : String :=
  "Accessor Report\n===============\nRoot: .\n\n" ++
  "./A.java\n      1  A.getB  getter (b)\n" ++
  "! ./C.java: File system error: Failed to read source file\n" ++
  "\nSummary:\n  Files scanned: 3\n  Files skipped: 1\n  Methods: 2\n" ++
  "  Accessors: 1 (1 getters, 0 setters)\n"

theorem report_tallied_mixed :
    (Scan.scanTree mixedFiles ⟨"."⟩ ⟨[], 0⟩).value = .ok mixedReport ∧ mixedReport.Tallied ∧
    mixedReport.ListedBy ⟨true, false⟩ ∧ mixedReport.ListedBy ⟨false, true⟩ ∧
    Listing.underHeadings none (Listing.rows ⟨false, true⟩ mixedReport.files) =
      [(some "./A.java", ⟨"A", "getB", 1, false, some (.getter "b")⟩)] ∧
    (mixedReport.writeTo ⟨.terminal, false, false⟩ .unlimited).2.taken = utf8 mixedListing ∧
    Summary.ofFiles mixedReport.files.reverse = mixedReport.summary := by
  have hfound : (Scan.findSources mixedFiles ⟨"."⟩ []).value =
      .ok [⟨"./A.java"⟩, ⟨"./B.java"⟩, ⟨"./C.java"⟩] :=
    Scan.findSources_of_walk (by decide) rfl rfl rfl (by decide +kernel) (by decide +kernel)
  have hscan : (Scan.scanTree mixedFiles ⟨"."⟩ ⟨[], 0⟩).value = .ok mixedReport :=
    Scan.scanTree_eq_ok_iff.mpr ⟨_, hfound, by decide +kernel⟩
  obtain ⟨htallied, hlisted⟩ := report_tallied.1 .inTurn mixedFiles ⟨"."⟩ ⟨[], 0⟩ mixedReport hscan
  have hlines : Listing.spelled ⟨false, false⟩ mixedReport = mixedListing := by decide +kernel
  refine ⟨hscan, htallied, hlisted _, hlisted _, rfl, ?_,
    report_tallied.2.2 _ mixedReport.files (List.reverse_perm _)⟩
  rw [(hlisted ⟨false, false⟩).written, hlines]

end ScanReport

end AccessorScan
