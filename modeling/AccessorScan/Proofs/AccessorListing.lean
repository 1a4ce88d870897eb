import AccessorScan.Proofs.Listing

/-!
# `Proofs.AccessorListing` — the default listing is the full listing of the accessors

What a listing says about files is made from its rows, and a row looks the same whether every method is
listed or not. So two listings of one colour agree where their rows do, and the rows of a file hang on its
path, its error and the methods that are shown of it.

## Contents
- `FileReport.accessorsOnly`, `ScanReport.accessorsOnly`: reports without the methods that are no accessors.
- `Listing.lines_congr`, `Listing.fileRows_congr`: what a listing hangs on.
- `Listing.shown_accessorsOnly`: a filter that comes before the listing.
- `ScanReport.listing_of_accessors`.
-/

namespace AccessorScan

/-- The report on a file with no methods but the accessors. -/
def FileReport.accessorsOnly (r : FileReport) : FileReport := { r with methods := r.accessors }

/-- The report with no methods but the accessors. The summary still speaks of all of them. -/
def ScanReport.accessorsOnly (r : ScanReport) : ScanReport :=
  { r with files := r.files.map FileReport.accessorsOnly }

namespace Listing

variable {l m : Listing}

theorem Row.text_congr (hcolor : l.color = m.color) : Row.text l = Row.text m := by
  funext row
  cases row with
  | failure path e => simp only [Row.text, hcolor]
  | heading path => simp only [Row.text, hcolor]
  | method v => simp only [Row.text, row, label, hcolor]

/-- **Equal rows make equal listings.** -/
theorem lines_congr {r s : ScanReport} (hcolor : l.color = m.color) (hroot : r.root = s.root)
    (hrows : l.rows r.files = m.rows s.files) (hsummary : r.summary = s.summary) :
    l.lines r = m.lines s := by
  have hheader : l.header r = m.header s := by simp only [header, hcolor, hroot]
  have hend : l.summary r.summary = m.summary s.summary := by simp only [summary, hcolor, hsummary]
  rw [lines_eq, lines_eq, hheader, hrows, Row.text_congr hcolor, hend]

/-- The rows of a file hang on its path, its error and, where it has none, on what is shown of it. -/
theorem fileRows_congr {f g : FileReport} (hpath : f.path = g.path) (herror : f.error = g.error)
    (hshown : f.error = none → l.shown f = m.shown g) : l.fileRows f = m.fileRows g := by
  unfold fileRows
  rw [← herror, hpath]
  cases hnone : f.error with
  | some e => rfl
  | none => rw [hshown hnone]

/-! ## Which methods are shown -/

theorem shown_of_default (hdefault : l.showAll = false) (f : FileReport) : l.shown f = f.accessors := by
  simp only [shown, hdefault, Bool.false_or]
  rfl

/-- Of accessors all are shown. -/
theorem shown_accessorsOnly (l : Listing) (f : FileReport) : l.shown f.accessorsOnly = f.accessors := by
  refine List.filter_eq_self.mpr fun v hv => ?_
  rw [(List.mem_filter.mp hv).2, Bool.or_true]

theorem rows_accessorsOnly (hdefault : m.showAll = false) (l : Listing) (files : List FileReport) :
    l.rows (files.map FileReport.accessorsOnly) = m.rows files := by
  unfold rows
  rw [List.flatMap_map]
  refine List.flatMap_congr fun f _ => fileRows_congr rfl rfl fun _ => ?_
  rw [shown_accessorsOnly, shown_of_default hdefault]

theorem shown_of_accessors {f : FileReport} (h : ∀ v ∈ f.methods, v.isAccessor = true) (l : Listing) :
    l.shown f = f.methods := by
  refine List.filter_eq_self.mpr fun v hv => ?_
  rw [h v hv, Bool.or_true]

end Listing

namespace ScanReport

/-- **The default listing is the full listing of the accessors.** It is the same text for a report and
    for its accessors only, and of these all are listed anyway. Where files without an error have nothing
    but accessors, the two listings of the report itself are the same. -/
theorem listing_of_accessors :
    (∀ (r : ScanReport) color,
      r.accessorsOnly.text ⟨.terminal, false, color⟩ = r.text ⟨.terminal, false, color⟩ ∧
      r.accessorsOnly.text ⟨.terminal, true, color⟩ = r.text ⟨.terminal, false, color⟩) ∧
    ∀ (r : ScanReport) color,
      (∀ f ∈ r.files, f.error = none → ∀ v ∈ f.methods, v.isAccessor = true) →
      r.text ⟨.terminal, true, color⟩ = r.text ⟨.terminal, false, color⟩ := by
  have hfiltered : ∀ (r : ScanReport) showAll color,
      r.accessorsOnly.text ⟨.terminal, showAll, color⟩ = r.text ⟨.terminal, false, color⟩ :=
    fun r showAll color => congrArg String.join
      (Listing.lines_congr rfl rfl (Listing.rows_accessorsOnly rfl _ r.files) rfl)
  refine ⟨fun r color => ⟨hfiltered r false color, hfiltered r true color⟩, fun r color h => ?_⟩
  refine congrArg String.join (Listing.lines_congr rfl rfl ?_ rfl)
  refine List.flatMap_congr fun f hf => Listing.fileRows_congr rfl rfl fun hnone => ?_
  rw [Listing.shown_of_accessors (h f hf hnone), Listing.shown_of_accessors (h f hf hnone)]

/-- A file with an accessor and another method, one without accessors, and one with a method and an error. -/
def assortedReport : ScanReport :=
  ⟨"src",
    [⟨"A.java", [⟨"A", "getB", 1, false, some (.getter "b")⟩, ⟨"A", "f", 2, false, none⟩], none⟩,
      ⟨"C.java", [⟨"C", "C", 1, true, none⟩], none⟩,
      ⟨"D.java", [⟨"D", "g", 1, false, none⟩], some "unreadable"⟩],
    ⟨3, 1, 4, 1, 0⟩⟩

/-- A report in which only a file with an error has a method that is no accessor. -/
def settledReport : ScanReport :=
  ⟨"src",
    [⟨"A.java", [⟨"A", "getB", 1, false, some (.getter "b")⟩], none⟩,
      ⟨"D.java", [⟨"D", "g", 1, false, none⟩], some "unreadable"⟩],
    ⟨2, 1, 2, 1, 0⟩⟩

theorem listing_of_accessors_assorted :
    assortedReport.text ⟨.terminal, true, true⟩ ≠ assortedReport.text ⟨.terminal, false, true⟩ ∧
    assortedReport.accessorsOnly.text ⟨.terminal, false, true⟩ =
      assortedReport.text ⟨.terminal, false, true⟩ ∧
    assortedReport.accessorsOnly.text ⟨.terminal, true, true⟩ =
      assortedReport.text ⟨.terminal, false, true⟩ ∧
    (∀ f ∈ settledReport.files, f.error = none → ∀ v ∈ f.methods, v.isAccessor = true) ∧
    settledReport.text ⟨.terminal, true, false⟩ = settledReport.text ⟨.terminal, false, false⟩ := by
  have hsettled : ∀ f ∈ settledReport.files, f.error = none → ∀ v ∈ f.methods, v.isAccessor = true := by
    decide
  obtain ⟨hsame, hfull⟩ := listing_of_accessors.1 assortedReport true
  exact ⟨by decide +kernel, hsame, hfull, hsettled, listing_of_accessors.2 settledReport false hsettled⟩

end ScanReport

end AccessorScan
