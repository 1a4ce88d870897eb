import AccessorScan.Proofs.JsonText
import AccessorScan.Proofs.Listing
import Mathlib.Data.List.Forall2

/-!
# `Proofs.Colors` — colour adds nothing but control sequences

A text for a terminal is read as what it shows and what it controls, without a look at how it was made.
Two renderings of a report are compared by that reading: what the coloured one shows is the other one, and
its control sequences come in pairs that open a style and end it. A relation of texts says so whatever
follows, so it is kept when texts are put together, and it is left to look at the parts of each line.

## Contents
- `Glyph`, `glyphs`: a text, read as a terminal reads it; `withoutControls`, `controls`, `areClosed`.
- `IsPlain`: texts without a character that could start a control sequence.
- `Colors`: two renderings of one text; `Colors.append`, `Colors.join`, `Colors.paint`.
- `Listing.colors_header`, `Listing.colors_row`, `Listing.colors_summary`: the lines of a listing.
- `ScanReport.color_only_controls`.
-/

namespace AccessorScan

/-! ## Reading a text for a terminal -/

/-- The character that control sequences start with. -/
def escape : Char := Char.ofNat 27

/-- The characters that may stand between the bracket and the end of a control sequence. -/
def isCode (c : Char) : Bool := c.isDigit || c == ';'

/-- The codes of the control sequence at the front, and what follows it. -/
def control? : List Char → Option (List Char × List Char)
  | c :: '[' :: rest =>
      if c = escape ∧ (rest.dropWhile isCode).head? = some 'm' then
        some (rest.takeWhile isCode, (rest.dropWhile isCode).tail)
      else none
  | _ => none

theorem control?_eq_some_iff {cs codes rest : List Char} :
    control? cs = some (codes, rest) ↔
      codes.all isCode = true ∧ cs = escape :: '[' :: (codes ++ 'm' :: rest) := by
  constructor
  · intro h
    unfold control? at h
    split at h
    next c tail =>
      split at h
      next hstart =>
        obtain ⟨rfl, hend⟩ := hstart
        obtain ⟨rfl, rfl⟩ := Prod.mk.inj (Option.some.inj h)
        obtain ⟨after, hafter⟩ := List.head?_eq_some_iff.mp hend
        refine ⟨List.all_takeWhile, ?_⟩
        rw [hafter, List.tail_cons, ← hafter, List.takeWhile_append_dropWhile]
      next => cases h
    next => cases h
  · rintro ⟨hcodes, rfl⟩
    have hall : ∀ c ∈ codes, isCode c = true := List.all_eq_true.mp hcodes
    have hm : isCode 'm' = false := by decide
    have htake : (codes ++ 'm' :: rest).takeWhile isCode = codes := by
      rw [List.takeWhile_append_of_pos hall, List.takeWhile_cons, hm]
      simp
    have hdrop : (codes ++ 'm' :: rest).dropWhile isCode = 'm' :: rest := by
      rw [List.dropWhile_append_of_pos hall, List.dropWhile_cons, hm]
      simp
    simp only [control?, htake, hdrop, List.head?_cons, List.tail_cons, and_self, if_true]

/-- A part of a text for a terminal. -/
inductive Glyph where
  | shown (c : Char)
  | control (codes : List Char)

namespace Glyph

def shown? : Glyph → Option Char
  | shown c => some c
  | control _ => none

def codes? : Glyph → Option (List Char)
  | shown _ => none
  | control codes => some codes

theorem filterMap_shown?_map_shown (cs : List Char) : (cs.map shown).filterMap shown? = cs := by
  rw [List.filterMap_map]
  exact List.filterMap_some

theorem filterMap_codes?_map_shown (cs : List Char) : (cs.map shown).filterMap codes? = [] := by
  rw [List.filterMap_map]
  exact List.filterMap_eq_nil_iff.mpr fun _ _ => rfl

end Glyph

/-- The text, read from the front. -/
def glyphs : List Char → List Glyph
  | [] => []
  | c :: cs =>
      match _h : control? (c :: cs) with
      | some (codes, rest) => .control codes :: glyphs rest
      | none => .shown c :: glyphs cs
termination_by cs => cs.length
decreasing_by
  · have hcs := (control?_eq_some_iff.mp _h).2
    rw [hcs]
    simp
    omega
  · exact Nat.lt_succ_self _

theorem glyphs_of_control {cs codes rest : List Char} (h : control? cs = some (codes, rest)) :
    glyphs cs = .control codes :: glyphs rest := by
  cases cs with
  | nil => cases h
  | cons c cs =>
      rw [glyphs]
      split
      next hcontrol =>
        rw [h] at hcontrol
        cases hcontrol
        rfl
      next hcontrol =>
        rw [h] at hcontrol
        cases hcontrol

theorem glyphs_control {codes : List Char} (h : codes.all isCode = true) (rest : List Char) :
    glyphs (escape :: '[' :: (codes ++ 'm' :: rest)) = .control codes :: glyphs rest :=
  glyphs_of_control (control?_eq_some_iff.mpr ⟨h, rfl⟩)

theorem glyphs_shown {c : Char} (h : c ≠ escape) (cs : List Char) :
    glyphs (c :: cs) = .shown c :: glyphs cs := by
  rw [glyphs]
  split
  next hcontrol =>
    obtain ⟨-, hcs⟩ := control?_eq_some_iff.mp hcontrol
    exact absurd (List.cons.inj hcs).1 h
  next => rfl

theorem glyphs_append_of_not_mem {cs : List Char} (h : escape ∉ cs) (rest : List Char) :
    glyphs (cs ++ rest) = cs.map .shown ++ glyphs rest := by
  induction cs with
  | nil => rfl
  | cons c cs ih =>
      rw [List.mem_cons, not_or] at h
      rw [List.cons_append, glyphs_shown (Ne.symm h.1), ih h.2]
      rfl

/-- What is left of a text without its control sequences. -/
def withoutControls (t : String) : String := String.ofList ((glyphs t.toList).filterMap Glyph.shown?)

/-- The codes of the control sequences in a text. -/
def controls (t : String) : List (List Char) := (glyphs t.toList).filterMap Glyph.codes?

/-- The codes that end every style. -/
def resetCodes : List Char := ['0']

/-- Every sequence that opens a style is followed by one that ends it, before the next one opens and
    before the end. -/
def areClosed : List (List Char) → Bool
  | [] => true
  | [_] => false
  | opening :: closing :: rest => opening != resetCodes && closing == resetCodes && areClosed rest

theorem areClosed_append {a b : List (List Char)} (ha : areClosed a = true) (hb : areClosed b = true) :
    areClosed (a ++ b) = true := by
  induction a using areClosed.induct with
  | case1 => exact hb
  | case2 => cases ha
  | case3 opening closing rest ih =>
      rw [areClosed, Bool.and_eq_true_iff] at ha
      rw [List.cons_append, List.cons_append, areClosed, ha.1, ih ha.2]
      rfl

/-! ## Two renderings of one text -/

/-- Nothing in the text could start a control sequence. -/
def IsPlain (t : String) : Prop := escape ∉ t.toList

/-- Whatever follows, the text `colored` shows what `plain` is, and every style in it is ended. What
    follows matters, since a control sequence could start in one text and end in the next. -/
structure Colors (colored plain : String) : Prop where
  isPlain : IsPlain plain
  reads : ∃ gs, (∀ rest, glyphs (colored.toList ++ rest) = gs ++ glyphs rest) ∧
    gs.filterMap Glyph.shown? = plain.toList ∧ areClosed (gs.filterMap Glyph.codes?) = true

theorem IsPlain.append {a b : String} (ha : IsPlain a) (hb : IsPlain b) : IsPlain (a ++ b) := by
  rw [IsPlain, String.toList_append, List.mem_append]
  exact not_or.mpr ⟨ha, hb⟩

namespace Colors

/-- **A text that has no colour is its own rendering.** -/
theorem of_isPlain {t : String} (h : IsPlain t) : Colors t t where
  isPlain := h
  reads := by
    refine ⟨t.toList.map .shown, glyphs_append_of_not_mem h, Glyph.filterMap_shown?_map_shown _, ?_⟩
    rw [Glyph.filterMap_codes?_map_shown]
    rfl

theorem append {a a' b b' : String} (ha : Colors a a') (hb : Colors b b') :
    Colors (a ++ b) (a' ++ b') where
  isPlain := ha.isPlain.append hb.isPlain
  reads := by
    obtain ⟨gs, hreads, hshown, hclosed⟩ := ha.reads
    obtain ⟨hs, hreads', hshown', hclosed'⟩ := hb.reads
    refine ⟨gs ++ hs, fun rest => ?_, ?_, ?_⟩
    · rw [String.toList_append, List.append_assoc, hreads, hreads', List.append_assoc]
    · rw [List.filterMap_append, hshown, hshown', String.toList_append]
    · rw [List.filterMap_append]
      exact areClosed_append hclosed hclosed'

theorem join {as bs : List String} (h : List.Forall₂ Colors as bs) :
    Colors (String.join as) (String.join bs) := by
  induction h with
  | nil => exact of_isPlain List.not_mem_nil
  | cons h _ ih =>
      rw [String.join_cons, String.join_cons]
      exact h.append ih

end Colors

/-! ## Styles -/

namespace Style

/-- The characters between the bracket and the end of the sequence that switches a style on. -/
def openingCodes (s : Style) : List Char := (String.intercalate ";" s.codes).toList

/-- The codes of a style can be read, and are not those that end it. -/
def IsOpening (s : Style) : Prop := s.openingCodes.all isCode = true ∧ s.openingCodes ≠ resetCodes

instance (s : Style) : Decidable s.IsOpening :=
  inferInstanceAs (Decidable (s.openingCodes.all isCode = true ∧ s.openingCodes ≠ resetCodes))

theorem reopen_of_not_mem (again : List Char) {cs : List Char} (h : escape ∉ cs) :
    reopen again cs = cs := by
  fun_induction reopen again cs with
  | case1 rest ih => exact absurd List.mem_cons_self h
  | case2 c rest hc ih => rw [ih fun hmem => h (by simp [hmem])]
  | case3 c rest hreset ih => rw [ih fun hmem => h (List.mem_cons_of_mem c hmem)]
  | case4 => rfl

/-- The characters of a text in a style. -/
theorem toList_paint (s : Style) {t : String} (ht : IsPlain t) :
    (s.paint true t).toList =
      escape :: '[' :: (s.openingCodes ++ 'm' ::
        (t.toList ++ escape :: '[' :: (resetCodes ++ ['m']))) := by
  rw [paint, if_pos rfl, String.toList_ofList, reopen_of_not_mem _ ht]
  simp [opening, reset, escape, resetCodes, openingCodes]

end Style

/-- **A text in a style is a rendering of the text.** -/
theorem Colors.paint {s : Style} (hs : s.IsOpening) {t : String} (ht : IsPlain t) :
    Colors (s.paint true t) (s.paint false t) where
  isPlain := ht
  reads := by
    obtain ⟨hcodes, hreset⟩ := hs
    refine ⟨[.control s.openingCodes] ++ t.toList.map .shown ++ [.control resetCodes],
      fun rest => ?_, ?_, ?_⟩
    · have hend : glyphs (escape :: '[' :: (resetCodes ++ 'm' :: rest)) =
          .control resetCodes :: glyphs rest := glyphs_control rfl rest
      rw [s.toList_paint ht]
      simp only [List.cons_append, List.append_assoc, List.nil_append]
      rw [glyphs_control hcodes, glyphs_append_of_not_mem ht, hend]
    · rw [List.filterMap_append, List.filterMap_append, Glyph.filterMap_shown?_map_shown]
      exact List.append_nil _
    · rw [List.filterMap_append, List.filterMap_append, Glyph.filterMap_codes?_map_shown]
      show (s.openingCodes != resetCodes && resetCodes == resetCodes && true) = true
      rw [bne_iff_ne.mpr hreset]
      rfl

/-! ## Plain texts -/

theorem isPlain_of_all {t : String} (h : t.toList.all (· != escape) = true) : IsPlain t :=
  fun hmem => by simpa using List.all_eq_true.mp h escape hmem

theorem isPlain_repr (n : Nat) : IsPlain (Nat.repr n) := by
  intro hmem
  have hdigit := Json.Reader.isDigit_of_mem_repr hmem
  cases hdigit

theorem isPlain_column (n : Nat) : IsPlain (Listing.column n) := by
  have hblanks : ∀ k, IsPlain ("".pushn ' ' k) := by
    intro k
    induction k with
    | zero => exact isPlain_of_all rfl
    | succ k ih =>
        have hpush : "".pushn ' ' (k + 1) = ("".pushn ' ' k) ++ " " := rfl
        rw [hpush]
        exact ih.append (isPlain_of_all rfl)
  exact (hblanks _).append (isPlain_repr n)

/-- The texts in a verdict. -/
def Verdict.texts (v : Verdict) : List String :=
  [v.owner, v.method] ++ (v.accessor.map Accessor.property).toList

theorem Verdict.isPlain_qualifiedName {v : Verdict} (h : ∀ t ∈ v.texts, IsPlain t) :
    IsPlain v.qualifiedName := by
  have howner : IsPlain v.owner := h _ (by simp [texts])
  have hmethod : IsPlain v.method := h _ (by simp [texts])
  exact (howner.append (isPlain_of_all rfl)).append hmethod

/-- The texts in a report on a file. -/
def FileReport.texts (r : FileReport) : List String :=
  r.path :: (r.error.toList ++ r.methods.flatMap Verdict.texts)

namespace ScanReport

/-- The texts in a report. -/
def texts (r : ScanReport) : List String := r.root :: r.files.flatMap FileReport.texts

/-- No text in the report has the character that control sequences start with. -/
def IsPlain (r : ScanReport) : Prop := ∀ t ∈ r.texts, escape ∉ t.toList

end ScanReport

/-! ## The lines of a listing -/

namespace Listing

theorem colors_words {t : String} (h : t.toList.all (· != escape) = true) : Colors t t :=
  Colors.of_isPlain (isPlain_of_all h)

theorem colors_line {parts parts' : List String} (h : List.Forall₂ Colors parts parts') :
    Colors (line parts) (line parts') :=
  (Colors.join h).append (colors_words rfl)

/-- The texts in a row. -/
def Row.texts : Row → List String
  | failure path e => [path, e]
  | heading path => [path]
  | method v => v.texts

/-- What stands in the rows of a listing stands in the report. -/
theorem mem_texts_of_mem_rows {l : Listing} {files : List FileReport} {row : Row} (h : row ∈ l.rows files)
    {t : String} (ht : t ∈ row.texts) : t ∈ files.flatMap FileReport.texts := by
  obtain ⟨f, hf, hrow⟩ := List.mem_flatMap.mp h
  refine List.mem_flatMap.mpr ⟨f, hf, ?_⟩
  unfold fileRows at hrow
  unfold FileReport.texts
  cases herror : f.error with
  | some e =>
      rw [herror] at hrow
      obtain rfl : row = .failure f.path e := by simpa using hrow
      obtain rfl | rfl : t = f.path ∨ t = e := by simpa [Row.texts] using ht
      · exact List.mem_cons_self
      · simp
  | none =>
      rw [herror] at hrow
      split at hrow
      next herror' => cases herror'
      next =>
        split at hrow
        next => cases hrow
        next =>
          obtain rfl | hmethod := List.mem_cons.mp hrow
          · obtain rfl : t = f.path := by simpa [Row.texts] using ht
            exact List.mem_cons_self
          · obtain ⟨v, hv, rfl⟩ := List.mem_map.mp hmethod
            have hv : v ∈ f.methods := (List.mem_filter.mp hv).1
            exact List.mem_cons_of_mem _
              (List.mem_append_right _ (List.mem_flatMap.mpr ⟨v, hv, ht⟩))

section Lines

variable (showAll : Bool)

theorem colors_header {r : ScanReport} (hroot : IsPlain r.root) :
    List.Forall₂ Colors (header ⟨showAll, true⟩ r) (header ⟨showAll, false⟩ r) := by
  have htitle := Colors.paint (s := titleStyle) (t := "Accessor Report") (by decide) (isPlain_of_all rfl)
  have hrule := Colors.paint (s := ruleStyle) (t := "===============") (by decide) (isPlain_of_all rfl)
  refine .cons (colors_line (.cons htitle .nil)) (.cons (colors_line (.cons hrule .nil))
    (.cons (colors_line ?_) (.cons (colors_line .nil) .nil)))
  exact .cons (colors_words rfl) (.cons (Colors.of_isPlain hroot) .nil)

theorem colors_label {v : Verdict} (h : ∀ t ∈ v.texts, IsPlain t) :
    Colors (label ⟨showAll, true⟩ v) (label ⟨showAll, false⟩ v) := by
  unfold label
  cases haccessor : v.accessor with
  | some a =>
      have hproperty : IsPlain a.property := h _ (by simp [Verdict.texts, haccessor])
      have hlabel : IsPlain a.label := by
        cases a with
        | getter p => exact isPlain_of_all (t := "getter") rfl
        | setter p => exact isPlain_of_all (t := "setter") rfl
      have hopening : IsPlain (a.label ++ " (") := hlabel.append (isPlain_of_all rfl)
      exact Colors.paint (by decide) ((hopening.append hproperty).append (isPlain_of_all rfl))
  | none =>
      refine Colors.paint (by decide) ?_
      cases v.isConstructor with
      | true => exact isPlain_of_all (t := "constructor") rfl
      | false => exact isPlain_of_all (t := "-") rfl

theorem colors_row {row : Row} (h : ∀ t ∈ row.texts, IsPlain t) :
    Colors (Row.text ⟨showAll, true⟩ row) (Row.text ⟨showAll, false⟩ row) := by
  cases row with
  | failure path e =>
      have hpath : IsPlain path := h _ (by simp [Row.texts])
      have herror : IsPlain e := h _ (by simp [Row.texts])
      have hmark := Colors.paint (s := alarmStyle) (t := "!") (by decide) (isPlain_of_all rfl)
      exact colors_line (.cons hmark (.cons (colors_words rfl) (.cons (Colors.of_isPlain hpath)
        (.cons (colors_words rfl) (.cons (Colors.paint (by decide) herror) .nil)))))
  | heading path =>
      have hpath : IsPlain path := h _ (by simp [Row.texts])
      exact colors_line (.cons (Colors.paint (by decide) hpath) .nil)
  | method v =>
      have hname := Colors.of_isPlain (v.isPlain_qualifiedName h)
      exact colors_line (.cons (colors_words rfl) (.cons (Colors.of_isPlain (isPlain_column v.line))
        (.cons (colors_words rfl) (.cons hname (.cons (colors_words rfl)
          (.cons (colors_label showAll h) .nil))))))

theorem colors_summary (s : Summary) :
    List.Forall₂ Colors (summary ⟨showAll, true⟩ s) (summary ⟨showAll, false⟩ s) := by
  have hcount : ∀ n, Colors (Nat.repr n) (Nat.repr n) := fun n => Colors.of_isPlain (isPlain_repr n)
  have hheading := Colors.paint (s := headingStyle) (t := "Summary:") (by decide) (isPlain_of_all rfl)
  unfold summary
  refine List.rel_append (List.rel_append ?_ ?_) ?_
  · exact .cons (colors_line .nil) (.cons (colors_line (.cons hheading .nil))
      (.cons (colors_line (.cons (colors_words rfl) (.cons (hcount _) .nil))) .nil))
  · split
    · exact .cons (colors_line (.cons (colors_words rfl)
        (.cons (Colors.paint (by decide) (isPlain_repr _)) .nil))) .nil
    · exact .nil
  · exact .cons (colors_line (.cons (colors_words rfl) (.cons (hcount _) .nil)))
      (.cons (colors_line (.cons (colors_words rfl)
        (.cons (Colors.paint (by decide) (isPlain_repr _)) (.cons (colors_words rfl)
          (.cons (hcount _) (.cons (colors_words rfl) (.cons (hcount _)
            (.cons (colors_words rfl) .nil)))))))) .nil)

/-- **Every line of a listing is rendered with colour and without.** -/
theorem colors_lines {r : ScanReport} (h : ∀ t ∈ r.texts, IsPlain t) :
    List.Forall₂ Colors (lines ⟨showAll, true⟩ r) (lines ⟨showAll, false⟩ r) := by
  rw [lines_eq, lines_eq]
  refine List.rel_append (List.rel_append (colors_header showAll (h _ List.mem_cons_self)) ?_)
    (colors_summary showAll r.summary)
  -- colour makes no difference to the rows
  show List.Forall₂ Colors (((⟨showAll, false⟩ : Listing).rows r.files).map _) _
  rw [List.forall₂_map_left_iff, List.forall₂_map_right_iff, List.forall₂_same]
  exact fun row hrow => colors_row showAll fun t ht =>
    h t (List.mem_cons_of_mem _ (mem_texts_of_mem_rows hrow ht))

end Lines

end Listing

namespace ScanReport

/-- **Colour adds only control sequences.** Where no text of a report could start one, the listing without
    colour has none, and it is what is left of the coloured listing without them. Every style in that is
    ended before the next one starts, and before the listing ends. -/
theorem color_only_controls {r : ScanReport} (h : r.IsPlain) (showAll : Bool) :
    let colored := r.text ⟨.terminal, showAll, true⟩
    let plain := r.text ⟨.terminal, showAll, false⟩
    withoutControls colored = plain ∧ escape ∉ plain.toList ∧ areClosed (controls colored) = true := by
  intro colored plain
  obtain ⟨hplain, gs, hreads, hshown, hclosed⟩ : Colors colored plain :=
    Colors.join (Listing.colors_lines showAll h)
  have hglyphs : glyphs colored.toList = gs := by
    have hall := hreads []
    rwa [List.append_nil, glyphs, List.append_nil] at hall
  refine ⟨?_, hplain, ?_⟩
  · rw [withoutControls, hglyphs, hshown, String.ofList_toList]
  · rw [controls, hglyphs]
    exact hclosed

/-- A report with texts that look like the rest of a control sequence. -/
def misleadingReport : ScanReport :=
  ⟨"[0m",
    [⟨"1;31m.java", [⟨"A", "[1m", 7, false, some (.setter "0m")⟩, ⟨"A", "A", 123456, true, none⟩], none⟩,
      ⟨"B.java", [], some "[31m"⟩],
    ⟨2, 1, 2, 0, 1⟩⟩

theorem color_only_controls_misleading :
    let colored := misleadingReport.text ⟨.terminal, true, true⟩
    let plain := misleadingReport.text ⟨.terminal, true, false⟩
    misleadingReport.IsPlain ∧ colored ≠ plain ∧ withoutControls colored = plain ∧
      escape ∉ plain.toList ∧ areClosed (controls colored) = true := by
  have hplain : misleadingReport.IsPlain := by
    unfold ScanReport.IsPlain
    decide
  exact ⟨hplain, by decide +kernel, color_only_controls hplain true⟩

end ScanReport

end AccessorScan
