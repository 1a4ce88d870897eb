import AccessorScan.Proofs.JsonRecords
import AccessorScan.Proofs.JsonText
import AccessorScan.Proofs.Writing

/-!
# `Proofs.ReportText` — the report format loses nothing

Every record of a report is read back from the value that it is written as, values are read back from their
text, and a sink is left with the bytes of the text. Counts must be below the limit of counts; there is no
condition on texts.

## Contents
- `Accessor.ofJson?_toJson`, …, `ScanReport.ofJson?_toJson`: each record.
- `ScanReport.HasCounts`: the numbers in a report are counts.
- `ScanReport.hasReadableLiterals`: a report is written without decimals.
- `ScanReport.ofJsonText?_text`, `ScanReport.ofJsonText?_writeTo`: a report is read back from its text, and
  from what a sink is left with; `ScanReport.text_lossless`.
-/

namespace AccessorScan

/-! ## Records -/

theorem Accessor.ofJson?_toJson (a : Accessor) : ofJson? a.toJson = some a := by
  cases a <;> rfl

theorem Verdict.ofJson?_toJson {v : Verdict} (h : v.line < countLimit) :
    ofJson? v.toJson = some v := by
  have hline : (Json.count v.line).count? = some v.line := Json.count?_count h
  have hreading : ofJson? v.toJson = do
      let line ← (Json.count v.line).count?
      let accessor ← Json.option? Accessor.ofJson? (Json.option Accessor.toJson v.accessor)
      return ⟨v.owner, v.method, line, v.isConstructor, accessor⟩ := rfl
  have haccessor : Json.option? Accessor.ofJson? (Json.option Accessor.toJson v.accessor) =
      some v.accessor := by
    cases v.accessor with
    | none => rfl
    | some a => cases a <;> rfl
  rw [hreading, hline, haccessor]
  rfl

theorem FileReport.ofJson?_toJson {r : FileReport} (h : ∀ v ∈ r.methods, v.line < countLimit) :
    ofJson? r.toJson = some r := by
  obtain ⟨path, methods, error⟩ := r
  have hmethods : (Json.array (methods.map Verdict.toJson)).array? Verdict.ofJson? = some methods :=
    Json.array?_map fun v hv => Verdict.ofJson?_toJson (h v hv)
  cases error with
  | none =>
      have hreading : ofJson? (FileReport.mk path methods none).toJson = do
          let ms ← (Json.array (methods.map Verdict.toJson)).array? Verdict.ofJson?
          return ⟨path, ms, none⟩ := rfl
      rw [hreading, hmethods]
      rfl
  | some e =>
      have hreading : ofJson? (FileReport.mk path methods (some e)).toJson = do
          let ms ← (Json.array (methods.map Verdict.toJson)).array? Verdict.ofJson?
          return ⟨path, ms, some e⟩ := rfl
      rw [hreading, hmethods]
      rfl

namespace Summary

/-- All numbers of a summary are counts. -/
structure HasCounts (s : Summary) : Prop where
  files : s.files < countLimit
  failedFiles : s.failedFiles < countLimit
  methods : s.methods < countLimit
  getters : s.getters < countLimit
  setters : s.setters < countLimit

theorem ofJson?_toJson {s : Summary} (h : s.HasCounts) : ofJson? s.toJson = some s := by
  have hreading : ofJson? s.toJson = do
      let files ← (Json.count s.files).count?
      let failedFiles ← (Json.count s.failedFiles).count?
      let methods ← (Json.count s.methods).count?
      let getters ← (Json.count s.getters).count?
      let setters ← (Json.count s.setters).count?
      return ⟨files, failedFiles, methods, getters, setters⟩ := rfl
  rw [hreading, Json.count?_count h.files, Json.count?_count h.failedFiles,
    Json.count?_count h.methods, Json.count?_count h.getters, Json.count?_count h.setters]
  rfl

end Summary

namespace ScanReport

/-- All numbers in a report are counts: the lines of its verdicts and those of its summary. -/
structure HasCounts (r : ScanReport) : Prop where
  lines : ∀ f ∈ r.files, ∀ v ∈ f.methods, v.line < countLimit
  summary : r.summary.HasCounts

theorem ofJson?_toJson {r : ScanReport} (h : r.HasCounts) : ofJson? r.toJson = some r := by
  have hfiles : (Json.array (r.files.map FileReport.toJson)).array? FileReport.ofJson? =
      some r.files :=
    Json.array?_map fun f hf => FileReport.ofJson?_toJson (h.lines f hf)
  have hreading : ofJson? r.toJson = do
      let files ← (Json.array (r.files.map FileReport.toJson)).array? FileReport.ofJson?
      let summary ← Summary.ofJson? r.summary.toJson
      return ⟨r.root, files, summary⟩ := rfl
  rw [hreading, hfiles, Summary.ofJson?_toJson h.summary]
  rfl

end ScanReport

/-! ## Texts -/

theorem Verdict.hasReadableLiterals (v : Verdict) : v.toJson.HasReadableLiterals := by
  obtain ⟨owner, method, line, isConstructor, accessor⟩ := v
  cases accessor with
  | none => exact ⟨trivial, trivial, trivial, trivial, trivial, trivial⟩
  | some a =>
      cases a <;>
        exact ⟨trivial, trivial, trivial, trivial, ⟨trivial, trivial, trivial⟩, trivial⟩

theorem FileReport.hasReadableLiterals (r : FileReport) : r.toJson.HasReadableLiterals := by
  obtain ⟨path, methods, error⟩ := r
  have hmethods : Json.ItemsHaveReadableLiterals (methods.map Verdict.toJson) :=
    Json.itemsHaveReadableLiterals_map fun v _ => v.hasReadableLiterals
  cases error with
  | none => exact ⟨trivial, hmethods, trivial⟩
  | some e => exact ⟨trivial, hmethods, trivial, trivial⟩

namespace ScanReport

/-- A report is written without decimals. -/
theorem hasReadableLiterals (r : ScanReport) : r.toJson.HasReadableLiterals := by
  have hfiles : Json.ItemsHaveReadableLiterals (r.files.map FileReport.toJson) :=
    Json.itemsHaveReadableLiterals_map fun f _ => f.hasReadableLiterals
  exact ⟨trivial, hfiles, ⟨trivial, trivial, trivial, trivial, trivial, trivial⟩, trivial⟩

theorem ofJsonText?_text {r : ScanReport} (h : r.HasCounts) (showAll color : Bool) :
    ofJsonText? (r.text ⟨.json, showAll, color⟩) = some r := by
  have htext : r.text ⟨.json, showAll, color⟩ = r.toJson.pretty ++ "\n" := by
    simp [text, pieces, jsonText]
  have hblank : ∀ c ∈ ("\n" : String).toList, Json.Reader.isBlank c = true := by
    intro c hc
    obtain rfl : c = '\n' := by simpa using hc
    decide
  rw [htext, ofJsonText?, Json.parse?_pretty r.hasReadableLiterals hblank]
  exact ofJson?_toJson h

/-- The report in these bytes. -/
def ofBytes? (bs : List UInt8) : Option ScanReport := (String.fromUTF8? ⟨bs.toArray⟩).bind ofJsonText?

theorem ofJsonText?_writeTo {r : ScanReport} (h : r.HasCounts) (showAll color : Bool) :
    (r.writeTo ⟨.json, showAll, color⟩ .unlimited).1 = .ok () ∧
      ofBytes? (r.writeTo ⟨.json, showAll, color⟩ .unlimited).2.taken = some r := by
  have hwritten : r.writeTo ⟨.json, showAll, color⟩ .unlimited =
      (.ok (), ⟨utf8 (r.text ⟨.json, showAll, color⟩), none, .noSpace, none⟩) := r.writeTo_eq _ _
  rw [hwritten]
  refine ⟨rfl, ?_⟩
  rw [ofBytes?, fromUTF8?_utf8, Option.bind_some, ofJsonText?_text h]

/-- **The report format loses nothing.** A report of counts is read back from the text that is written
    for it, whatever its texts are, and no two such reports have the same text. So it is with the bytes that
    a sink is left with. -/
theorem text_lossless :
    (∀ r : ScanReport, r.HasCounts → ∀ showAll color,
      ofJsonText? (r.text ⟨.json, showAll, color⟩) = some r) ∧
    (∀ r s : ScanReport, r.HasCounts → s.HasCounts → ∀ showAll color,
      r.text ⟨.json, showAll, color⟩ = s.text ⟨.json, showAll, color⟩ → r = s) ∧
    (∀ r : ScanReport, r.HasCounts → ∀ showAll color,
      (r.writeTo ⟨.json, showAll, color⟩ .unlimited).1 = .ok () ∧
        ofBytes? (r.writeTo ⟨.json, showAll, color⟩ .unlimited).2.taken = some r) ∧
    ∀ r s : ScanReport, r.HasCounts → s.HasCounts → ∀ showAll color,
      (r.writeTo ⟨.json, showAll, color⟩ .unlimited).2.taken =
        (s.writeTo ⟨.json, showAll, color⟩ .unlimited).2.taken → r = s := by
  refine ⟨fun r h => ofJsonText?_text h, fun r s hr hs showAll color htext => ?_,
    fun r h => ofJsonText?_writeTo h, fun r s hr hs showAll color hbytes => ?_⟩
  · have hread := ofJsonText?_text hr showAll color
    rw [htext, ofJsonText?_text hs] at hread
    exact (Option.some.inj hread).symm
  · have hread := (ofJsonText?_writeTo hr showAll color).2
    rw [hbytes, (ofJsonText?_writeTo hs showAll color).2] at hread
    exact (Option.some.inj hread).symm

/-- A report with quotes, a backslash, control characters and characters of two, three and four bytes
    in its texts, and with the largest count. -/
def awkward : ScanReport :=
  let method (accessor : Option Accessor) : Verdict :=
    ⟨"A\"\\.\n", "\u0001\x7f", 18446744073709551615, accessor.isNone, accessor⟩
  ⟨"", [⟨"é/中😀", [method (some (.getter "\t")), method (some (.setter "")), method none], none⟩,
    ⟨"null", [], some ""⟩], ⟨2, 1, 3, 1, 18446744073709551615⟩⟩

theorem text_lossless_awkward :
    awkward.HasCounts ∧
    ofJsonText? (awkward.text ⟨.json, false, true⟩) = some awkward ∧
    (∀ r : ScanReport, r.HasCounts →
      r.text ⟨.json, false, true⟩ = awkward.text ⟨.json, false, true⟩ → r = awkward) ∧
    ofBytes? (awkward.writeTo ⟨.json, true, false⟩ .unlimited).2.taken = some awkward ∧
    ∀ r : ScanReport, r.HasCounts → (r.writeTo ⟨.json, true, false⟩ .unlimited).2.taken =
      (awkward.writeTo ⟨.json, true, false⟩ .unlimited).2.taken → r = awkward := by
  have hcounts : awkward.HasCounts := by
    refine ⟨?_, ⟨?_, ?_, ?_, ?_, ?_⟩⟩ <;> decide
  obtain ⟨hread, htexts, hwritten, hbytes⟩ := text_lossless
  exact ⟨hcounts, hread awkward hcounts false true, fun r hr => htexts r awkward hr hcounts false true,
    (hwritten awkward hcounts true false).2, fun r hr => hbytes r awkward hr hcounts true false⟩

end ScanReport

end AccessorScan
