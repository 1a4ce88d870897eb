import AccessorScan.Proofs.Writing
import Mathlib.Data.List.Basic

/-!
# `Proofs.Listing` — what stands in a listing

A listing is a title, rows and a summary. Which rows there are is told apart from what stands in them: the rows
are read off the files by filters of their own, and each of them is spelled out here once more, down to the
codes of its colours, as what a sink is left with.

## Contents
- `Listing.tinted`, `Listing.aligned`, `Listing.finding`: the parts of a row.
- `Listing.Row`, `Listing.rows`: what the lines about files are made from; `Row.spelled`: what stands in them.
- `Listing.lines_eq`: every line is a row.
- `Listing.failures_rows`, `Listing.headings_rows`, `Listing.underHeadings_rows`: the rows of a listing,
  by what they tell.
- `Listing.titleText`, `Listing.summaryText`, `Listing.spelled`; `ScanReport.writeTo_listing`.
-/

namespace AccessorScan

namespace Listing

/-! ## Parts of a row -/

/-- A text between control sequences, the first one with these codes, or the bare text. A sequence inside the
    text that ends all colours is followed by the first one again. -/
def tinted (color : Bool) (codes : List String) (t : String) : String :=
  if color then
    let opening := "\x1b[" ++ String.intercalate ";" codes ++ "m"
    opening ++ String.ofList (Style.reopen opening.toList t.toList) ++ "\x1b[0m"
  else t

/-- The digits of a number, after blanks where there are fewer than five. -/
def aligned (n : Nat) : String := String.ofList ((Nat.repr n).toList.leftpad 5 ' ')

/-- What was found about a method: the sort of accessor with its property, or that it is none. -/
def finding (color : Bool) (v : Verdict) : String :=
  match v.accessor with
  | some (.getter property) => tinted color ["32"] ("getter (" ++ property ++ ")")
  | some (.setter property) => tinted color ["32"] ("setter (" ++ property ++ ")")
  | none => tinted color ["2"] (if v.isConstructor then "constructor" else "-")

theorem paint_eq (codes : List String) (color : Bool) (t : String) :
    (Style.mk codes).paint color t = tinted color codes t := by
  cases color with
  | false => rfl
  | true =>
      have hopening : ("\x1b[" ++ String.intercalate ";" codes ++ "m").toList = (Style.mk codes).opening := by
        rw [String.toList_append, String.toList_append]
        rfl
      simp only [Style.paint, tinted, if_true, hopening, String.ofList_append]
      rw [← hopening, String.ofList_toList]
      rfl

theorem column_eq (n : Nat) : column n = aligned n := by
  have hblanks : ∀ k : Nat, "".pushn ' ' k = String.ofList (List.replicate k ' ') := by
    intro k
    induction k with
    | zero => rfl
    | succ k ih =>
        have hpush : "".pushn ' ' (k + 1) = ("".pushn ' ' k) ++ " " := rfl
        rw [hpush, ih, List.replicate_succ', String.ofList_append]
  rw [column, hblanks, aligned, List.leftpad, String.ofList_append, String.ofList_toList,
    String.length_toList]

theorem label_eq (l : Listing) (v : Verdict) : l.label v = finding l.color v := by
  unfold label finding
  rcases v.accessor with _ | _ | _
  · exact paint_eq _ _ _
  · exact paint_eq _ _ _
  · exact paint_eq _ _ _

/-! ## Rows -/

/-- What a line about a file is made from. -/
inductive Row where
  /-- A file that could not be read. -/
  | failure (path error : String)
  /-- The path that stands above the methods of a file. -/
  | heading (path : String)
  | method (v : Verdict)

namespace Row

/-- The line of a row. -/
def text (l : Listing) : Row → String
  | failure path e =>
      line [alarmStyle.paint l.color "!", " ", path, ": ", failureStyle.paint l.color e]
  | heading path => line [headingStyle.paint l.color path]
  | method v => l.row v

/-- What stands in a row: the number of the line moved to the right, the qualified name and what was found;
    or the path; or the path and the error. -/
def spelled (color : Bool) : Row → String
  | failure path e => tinted color ["1", "31"] "!" ++ " " ++ path ++ ": " ++ tinted color ["31"] e ++ "\n"
  | heading path => tinted color ["1"] path ++ "\n"
  | method v =>
      "  " ++ aligned v.line ++ "  " ++ v.owner ++ "." ++ v.method ++ "  " ++ finding color v ++ "\n"

def failure? : Row → Option (String × String)
  | failure path e => some (path, e)
  | _ => none

def heading? : Row → Option String
  | heading path => some path
  | _ => none

end Row

/-- The verdicts in method rows, each with the path in the heading that they stand under. What stands
    under a heading ends with the next row that is not about a method. -/
def underHeadings (above : Option String) : List Row → List (Option String × Verdict)
  | [] => []
  | .failure _ _ :: rest => underHeadings none rest
  | .heading path :: rest => underHeadings (some path) rest
  | .method v :: rest => (above, v) :: underHeadings above rest

def fileRows (l : Listing) (r : FileReport) : List Row :=
  match r.error with
  | some e => [.failure r.path e]
  | none => if (l.shown r).isEmpty then [] else .heading r.path :: (l.shown r).map .method

/-- The rows of the lines about these files. -/
def rows (l : Listing) (files : List FileReport) : List Row := files.flatMap l.fileRows

theorem rows_cons (l : Listing) (f : FileReport) (files : List FileReport) :
    l.rows (f :: files) = l.fileRows f ++ l.rows files :=
  List.flatMap_cons

theorem Row.text_eq (l : Listing) (row : Row) : row.text l = row.spelled l.color := by
  cases row with
  | failure path e =>
      simp only [Row.text, Row.spelled, line, alarmStyle, failureStyle, paint_eq, String.join_cons,
        String.join_nil, String.append_assoc, String.empty_append]
  | heading path =>
      simp only [Row.text, Row.spelled, line, headingStyle, paint_eq, String.join_cons, String.join_nil,
        String.append_empty]
  | method v =>
      simp only [Row.text, Row.spelled, Listing.row, line, Verdict.qualifiedName, column_eq, label_eq,
        String.join_cons, String.join_nil, String.append_assoc, String.empty_append]

theorem file_eq (l : Listing) (r : FileReport) : l.file r = (l.fileRows r).map (Row.text l) := by
  unfold file fileRows
  cases r.error with
  | some e => rfl
  | none =>
      cases hshown : l.shown r with
      | nil => rfl
      | cons v vs => simp [Row.text]

/-- **Every line is a row.** Between the header and the summary a listing has the lines of its rows. -/
theorem lines_eq (l : Listing) (r : ScanReport) :
    l.lines r = l.header r ++ (l.rows r.files).map (Row.text l) ++ l.summary r.summary := by
  have hfiles : r.files.flatMap l.file = (l.rows r.files).map (Row.text l) := by
    rw [rows, List.map_flatMap]
    exact List.flatMap_congr fun f _ => l.file_eq f
  rw [lines, hfiles]

/-- What is read off the rows that are not about methods: each file has one such row, unless nothing of
    it is shown. -/
theorem filterMap_rows {α : Type} {read : Row → Option α} (hmethod : ∀ v, read (.method v) = none)
    (l : Listing) (files : List FileReport) :
    (l.rows files).filterMap read =
      files.filterMap fun f =>
        match f.error with
        | some e => read (.failure f.path e)
        | none => if (l.shown f).isEmpty then none else read (.heading f.path) := by
  have hmethods : ∀ vs : List Verdict, (vs.map Row.method).filterMap read = [] :=
    fun vs => List.filterMap_eq_nil_iff.mpr (by simpa using fun v _ => hmethod v)
  induction files with
  | nil => rfl
  | cons f files ih =>
      rw [rows_cons, List.filterMap_append, ih, fileRows, List.filterMap_cons]
      cases f.error with
      | some e => cases hread : read (.failure f.path e) <;> simp [hread]
      | none =>
          cases hshown : l.shown f with
          | nil => rfl
          | cons v vs =>
              simp only [List.isEmpty_cons, Bool.false_eq_true, if_false, List.filterMap_cons]
              rw [hmethods]
              cases read (.heading f.path) <;> rfl

theorem failures_rows (l : Listing) (files : List FileReport) :
    (l.rows files).filterMap Row.failure? =
      files.filterMap fun f => f.error.map fun e => (f.path, e) := by
  rw [filterMap_rows fun _ => rfl]
  refine List.filterMap_congr fun f _ => ?_
  cases f.error with
  | some e => rfl
  | none => exact ite_self none

theorem headings_rows (l : Listing) (files : List FileReport) :
    (l.rows files).filterMap Row.heading? =
      (files.filter fun f => f.error.isNone && !(l.shown f).isEmpty).map FileReport.path := by
  rw [filterMap_rows fun _ => rfl, ← List.filterMap_eq_map, List.filterMap_filter]
  refine List.filterMap_congr fun f _ => ?_
  cases f.error with
  | some e => rfl
  | none => cases l.shown f <;> rfl

/-- Method rows with nothing else between them stand under the same heading. -/
theorem underHeadings_map_method (above : Option String) (vs : List Verdict) (rest : List Row) :
    underHeadings above (vs.map .method ++ rest) =
      vs.map (fun v => (above, v)) ++ underHeadings above rest := by
  induction vs with
  | nil => rfl
  | cons v vs ih => exact congrArg ((above, v) :: ·) ih

/-- **Methods stand under their files.** The method rows show what is to be shown of each file without
    an error, in order and under the path of that file. -/
theorem underHeadings_rows (l : Listing) (files : List FileReport) (above : Option String) :
    underHeadings above (l.rows files) =
      files.flatMap fun f =>
        (if f.error.isSome then [] else l.shown f).map fun v => (some f.path, v) := by
  induction files generalizing above with
  | nil => rfl
  | cons f files ih =>
      rw [rows_cons, fileRows, List.flatMap_cons]
      -- A file of which nothing is shown leaves the last heading above what follows, which begins with a
      -- heading or a failure of its own.
      cases f.error with
      | some e => exact ih none
      | none =>
          cases l.shown f with
          | nil => exact ih above
          | cons v vs =>
              show underHeadings (some f.path) ((v :: vs).map .method ++ l.rows files) = _
              rw [underHeadings_map_method, ih]
              rfl

end Listing

/-! ## The whole listing -/

namespace Listing

def titleText (color : Bool) (root : String) : String :=
  tinted color ["1", "34"] "Accessor Report" ++ "\n" ++ tinted color ["34"] "===============" ++ "\n" ++
    "Root: " ++ root ++ "\n" ++ "\n"

/-- The counts of a summary. That of the files that were skipped is left out if there are none. -/
def summaryText (color : Bool) (s : Summary) : String :=
  "\n" ++ tinted color ["1"] "Summary:" ++ "\n" ++
    "  Files scanned: " ++ Nat.repr s.files ++ "\n" ++
    (if s.failedFiles = 0 then ""
      else "  Files skipped: " ++ tinted color ["31"] (Nat.repr s.failedFiles) ++ "\n") ++
    "  Methods: " ++ Nat.repr s.methods ++ "\n" ++
    "  Accessors: " ++ tinted color ["32"] (Nat.repr s.accessors) ++ " (" ++ Nat.repr s.getters ++
    " getters, " ++ Nat.repr s.setters ++ " setters)" ++ "\n"

/-- Title, rows and summary of a report. -/
def spelled (l : Listing) (r : ScanReport) : String :=
  titleText l.color r.root ++ String.join ((l.rows r.files).map (Row.spelled l.color)) ++
    summaryText l.color r.summary

theorem join_header (l : Listing) (r : ScanReport) :
    String.join (l.header r) = titleText l.color r.root := by
  simp only [header, titleText, line, titleStyle, ruleStyle, paint_eq, String.join_cons, String.join_nil,
    String.append_assoc, String.append_empty, String.empty_append]

theorem join_summary (l : Listing) (s : Summary) :
    String.join (l.summary s) = summaryText l.color s := by
  have hskipped : String.join (if s.failedFiles > 0 then
        [line ["  Files skipped: ", failureStyle.paint l.color (Nat.repr s.failedFiles)]] else []) =
      if s.failedFiles = 0 then ""
        else "  Files skipped: " ++ (tinted l.color ["31"] (Nat.repr s.failedFiles) ++ "\n") := by
    by_cases hnone : s.failedFiles = 0
    · rw [if_neg (by omega), if_pos hnone, String.join_nil]
    · rw [if_pos (by omega), if_neg hnone]
      simp only [line, failureStyle, paint_eq, String.join_cons, String.join_nil, String.append_assoc,
        String.append_empty]
  -- the line in the middle is there or not, so it is joined by itself
  unfold summaryText
  rw [summary, String.join_append, String.join_append, hskipped]
  simp only [line, headingStyle, successStyle, paint_eq, String.join_cons, String.join_nil,
    String.append_assoc, String.append_empty, String.empty_append]

theorem join_lines (l : Listing) (r : ScanReport) : String.join (l.lines r) = l.spelled r := by
  have htext : Row.text l = Row.spelled l.color := funext (Row.text_eq l)
  rw [lines_eq, String.join_append, String.join_append, join_header, join_summary, htext, spelled]

end Listing

/-- **A sink is left with what stands in the listing,** as far as there is room. -/
theorem ScanReport.writeTo_listing (r : ScanReport) (l : Listing) (s : Sink) :
    r.writeTo ⟨.terminal, l.showAll, l.color⟩ s = s.receive (utf8 (l.spelled r)) := by
  rw [writeTo_eq, ← Listing.join_lines]
  rfl

end AccessorScan
