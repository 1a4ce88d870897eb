import AccessorScan.Report.Writing

/-!
# `Proofs.Writing` — a sink that fails has received exactly a prefix

A report is written in many calls, each of which may take a part of what it is offered and any of which
may fail. What becomes of a sink under one write is said here by the room in it alone (`Sink.receive`),
and that does not depend on how bytes are cut into writes. So a report is received like a single string
of bytes: all of it where there is room, and else its first bytes, with the error of the sink as the end
of the work.

## Contents
- `Sink.receive`, `Sink.receive_append`.
- `Writing.into_bytes`, `Writing.into_forM_bytes`: writes up to the first error, as one receipt.
- `Listing.print_eq`, `ScanReport.writeTo_eq`: the report is written as the text that it is made of.
- `ScanReport.writeTo_exact`.
-/

namespace AccessorScan

/-- The bytes of a text. -/
def utf8 (t : String) : List UInt8 := t.toUTF8.data.toList

theorem utf8_append (a b : String) : utf8 (a ++ b) = utf8 a ++ utf8 b := by
  simp [utf8]

theorem utf8_join (ts : List String) : utf8 (String.join ts) = ts.flatMap utf8 := by
  induction ts with
  | nil => rfl
  | cons t ts ih => rw [String.join_cons, utf8_append, ih, List.flatMap_cons]

theorem fromUTF8?_utf8 (t : String) : String.fromUTF8? ⟨(utf8 t).toArray⟩ = some t :=
  dif_pos t.isValidUTF8

/-! ## What a sink receives -/

namespace Sink

/-- How the writing of these bytes ends, and the sink afterwards. -/
def receive (s : Sink) (bs : List UInt8) : Except IoError Unit × Sink :=
  match s.room with
  | none => (.ok (), s.add bs)
  | some n =>
      if bs.length ≤ n then (.ok (), s.add bs)
      else (.error s.refusal, (s.add (bs.take n)).refused)

variable {s : Sink} {a b bs : List UInt8} {n : Nat}

theorem receive_of_unlimited (hroom : s.room = none) (bs : List UInt8) :
    s.receive bs = (.ok (), s.add bs) := by
  simp only [receive, hroom]

theorem receive_of_le (hroom : s.room = some n) (hle : bs.length ≤ n) :
    s.receive bs = (.ok (), s.add bs) := by
  simp only [receive, hroom, if_pos hle]

theorem receive_of_lt (hroom : s.room = some n) (hlt : n < bs.length) :
    s.receive bs = (.error s.refusal, (s.add (bs.take n)).refused) := by
  simp only [receive, hroom, if_neg (Nat.not_le.mpr hlt)]

theorem add_nil (s : Sink) : s.add [] = s := by
  obtain ⟨taken, room, refusal, relief⟩ := s
  cases room <;> simp [add]

theorem add_add (s : Sink) (a b : List UInt8) : (s.add a).add b = s.add (a ++ b) := by
  obtain ⟨taken, room, refusal, relief⟩ := s
  cases room <;> simp [add, Nat.sub_sub]

theorem receive_nil (s : Sink) : s.receive [] = (.ok (), s) := by
  cases hroom : s.room with
  | none => rw [receive_of_unlimited hroom, add_nil]
  | some n =>
      have hle : ([] : List UInt8).length ≤ n := Nat.zero_le n
      rw [receive_of_le hroom hle, add_nil]

theorem room_add (hroom : s.room = some n) (a : List UInt8) : (s.add a).room = some (n - a.length) := by
  simp only [add, hroom, Option.map_some]

/-- **The cut does not count.** Two strings of bytes are received like one, unless the first is too long
    already. -/
theorem receive_append (s : Sink) (a b : List UInt8) :
    s.receive (a ++ b) =
      match s.receive a with
      | (.ok (), t) => t.receive b
      | (.error e, t) => (.error e, t) := by
  cases hroom : s.room with
  | none =>
      have hafter : (s.add a).room = none := by simp only [add, hroom, Option.map_none]
      simp only [receive_of_unlimited hroom, receive_of_unlimited hafter, add_add]
  | some n =>
      have hlength : (a ++ b).length = a.length + b.length := List.length_append
      by_cases ha : a.length ≤ n
      · have hafter := room_add hroom a
        simp only [receive_of_le hroom ha]
        by_cases hb : b.length ≤ n - a.length
        · rw [receive_of_le hafter hb, receive_of_le hroom (by omega), add_add]
        · have htake : (a ++ b).take n = a ++ b.take (n - a.length) := by
            rw [List.take_append, List.take_of_length_le ha]
          rw [receive_of_lt hafter (by omega), receive_of_lt hroom (by omega), add_add, htake]
          rfl
      · have htake : (a ++ b).take n = a.take n := List.take_append_of_le_length (by omega)
        rw [receive_of_lt hroom (by omega), receive_of_lt hroom (by omega), htake]

/-- One call on bytes is a refusal, where there is no room at all, or the receipt of some of them. -/
theorem offer_cases (s : Sink) (hbs : bs ≠ []) :
    (s.offer bs = (.error s.refusal, s.refused) ∧ s.receive bs = (.error s.refusal, s.refused)) ∨
    ∃ n, 0 < n ∧ s.offer bs = (.ok n, s.add (bs.take n)) ∧
      s.receive (bs.take n) = (.ok (), s.add (bs.take n)) := by
  have hpos : 0 < bs.length := List.length_pos_iff.mpr hbs
  by_cases hshare : s.share bs = 0
  · left
    have hroom : s.room = some 0 := by
      unfold share at hshare
      cases hroom : s.room with
      | none =>
          rw [hroom] at hshare
          exact absurd hshare (Nat.ne_of_gt hpos)
      | some n =>
          rw [hroom] at hshare
          have hmin : min n bs.length = 0 := hshare
          rw [show n = 0 by omega]
    refine ⟨if_pos ⟨hshare, hbs⟩, ?_⟩
    rw [receive_of_lt hroom hpos, List.take_zero, add_nil]
  · right
    refine ⟨s.share bs, Nat.pos_of_ne_zero hshare, if_neg fun h => hshare h.1, ?_⟩
    cases hroom : s.room with
    | none => exact receive_of_unlimited hroom _
    | some n =>
        refine receive_of_le hroom ?_
        simp only [share, hroom, List.length_take]
        omega

end Sink

/-! ## What is written -/

namespace Writing

variable {α β : Type}

theorem into_bind (w : Writing α) (f : α → Writing β) (s : Sink) :
    (w >>= f).into s =
      match w.into s with
      | (.ok x, t) => (f x).into t
      | (.error e, t) => (.error e, t) := by
  show (match w s with
    | (x, t) => ExceptT.bindCont f x t) = _
  show _ = (match w s with
    | (.ok x, t) => (f x).into t
    | (.error e, t) => (.error e, t))
  rcases w s with ⟨e | x, t⟩ <;> rfl

/-- **One write.** It goes on until all bytes are taken or the sink refuses. -/
theorem into_bytes (bs : List UInt8) (s : Sink) : (bytes bs).into s = s.receive bs := by
  induction bs using bytes.induct generalizing s with
  | case1 =>
      rw [bytes, if_pos rfl, Sink.receive_nil]
      rfl
  | case2 bs hbs ih =>
      rw [bytes, if_neg hbs, into_bind]
      obtain ⟨hoffer, hreceive⟩ | ⟨n, hn, hoffer, hreceive⟩ := s.offer_cases hbs
      · rw [hreceive, show (offer bs).into s = _ from hoffer]
      · -- what is left is written next, and both parts are received like the whole
        have hwhole := s.receive_append (bs.take n) (bs.drop n)
        rw [List.take_append_drop, hreceive] at hwhole
        rw [hwhole, show (offer bs).into s = _ from hoffer]
        show (if n = 0 then throw nothingTaken else bytes (bs.drop n)).into (s.add (bs.take n)) =
          (s.add (bs.take n)).receive (bs.drop n)
        rw [if_neg (Nat.ne_of_gt hn)]
        exact ih n (Nat.ne_of_gt hn) _

/-- **Many writes.** Up to the first error they come to the same as one write of everything. -/
theorem into_forM_bytes (chunks : List (List UInt8)) (s : Sink) :
    (chunks.forM bytes).into s = s.receive chunks.flatten := by
  induction chunks generalizing s with
  | nil => exact s.receive_nil.symm
  | cons chunk chunks ih =>
      rw [List.flatten_cons, Sink.receive_append]
      show (bytes chunk >>= fun _ => chunks.forM bytes).into s = _
      rw [into_bind, into_bytes]
      rcases s.receive chunk with ⟨e | _, t⟩
      · rfl
      · exact ih t

theorem into_forM_text (ts : List String) (s : Sink) :
    (ts.forM text).into s = s.receive (utf8 (String.join ts)) := by
  rw [utf8_join, List.flatMap_def, ← into_forM_bytes]
  simp only [List.forM_eq_forM, List.forM_map]
  rfl

end Writing

/-! ## A report -/

namespace Listing

open Writing (text)

theorem forM_text_flatMap {α : Type} (xs : List α) (f : α → List String) :
    (xs.flatMap f).forM text = xs.forM fun x => (f x).forM text := by
  induction xs with
  | nil => rfl
  | cons x xs ih =>
      rw [List.flatMap_cons]
      show forM (f x ++ xs.flatMap f) text = _
      rw [List.forM_append]
      exact congrArg (((f x).forM text) >>= ·) (funext fun _ => ih)

theorem printFile_eq (l : Listing) (r : FileReport) : l.printFile r = (l.file r).forM text := by
  unfold printFile file
  cases r.error with
  | some e => exact bind_pure_unit.symm
  | none =>
      cases l.shown r with
      | nil => rfl
      | cons v vs =>
          simp only [List.isEmpty_cons, Bool.false_eq_true, if_false, List.forM_eq_forM, List.forM_cons,
            List.map_cons, List.forM_map]

/-- **A listing is written line by line.** What is skipped in a file has no line, and nothing is written
    but lines. -/
theorem print_eq (l : Listing) (r : ScanReport) : l.print r = (l.lines r).forM text := by
  have hfiles : r.files.forM l.printFile = (r.files.flatMap l.file).forM text := by
    rw [forM_text_flatMap]
    exact congrArg r.files.forM (funext l.printFile_eq)
  unfold print lines
  rw [hfiles, show Writing.flush = pure () from rfl]
  simp only [List.forM_eq_forM, List.forM_append, bind_pure_unit, bind_assoc]

end Listing

namespace ScanReport

/-- A report is written piece by piece. -/
theorem print_eq (r : ScanReport) (style : OutputStyle) :
    r.print style = (r.pieces style).forM Writing.text := by
  unfold print pieces
  cases style.format with
  | json => rfl
  | terminal => exact Listing.print_eq _ r

/-- **A report is received like its text.** -/
theorem writeTo_eq (r : ScanReport) (style : OutputStyle) (s : Sink) :
    r.writeTo style s = s.receive (utf8 (r.text style)) := by
  rw [writeTo, print_eq, Writing.into_forM_text]
  rfl

/-- **A sink that fails midway has received exactly a prefix.** Where all of a report fits, down to the
    last byte, writing ends well and the sink holds all of it. Where it does not, writing ends with the
    error of the sink, which holds as many bytes from the front as there was room for. Nothing is offered
    to it after that: the room that there is after the refusal stays as it is. Nor does any of this depend
    on the cut of the report into writes. -/
theorem writeTo_exact (r : ScanReport) (style : OutputStyle) :
    let full := (r.writeTo style .unlimited).2.taken
    (r.writeTo style .unlimited).1 = .ok () ∧ full = utf8 (r.text style) ∧
    ∀ (n : Nat) (refusal : IoError) (relief : Option Nat),
      let sink : Sink := ⟨[], some n, refusal, relief⟩
      ((r.writeTo style sink).1 = .ok () ↔ full.length ≤ n) ∧
      (full.length ≤ n →
        r.writeTo style sink = (.ok (), ⟨full, some (n - full.length), refusal, relief⟩)) ∧
      (n < full.length →
        r.writeTo style sink = (.error refusal, ⟨full.take n, relief, refusal, relief⟩)) ∧
      ∀ chunks : List (List UInt8), chunks.flatten = full →
        (chunks.forM Writing.bytes).into sink = r.writeTo style sink := by
  have hwrite : ∀ s, r.writeTo style s = s.receive (utf8 (r.text style)) := r.writeTo_eq style
  generalize utf8 (r.text style) = bs at hwrite
  have hunlimited : r.writeTo style .unlimited = (.ok (), ⟨bs, none, .noSpace, none⟩) := hwrite _
  simp only [hunlimited, true_and]
  intro n refusal relief
  have hfits : bs.length ≤ n → r.writeTo style ⟨[], some n, refusal, relief⟩ =
      (.ok (), ⟨bs, some (n - bs.length), refusal, relief⟩) :=
    fun hle => (hwrite _).trans (Sink.receive_of_le rfl hle)
  have hexceeds : n < bs.length → r.writeTo style ⟨[], some n, refusal, relief⟩ =
      (.error refusal, ⟨bs.take n, relief, refusal, relief⟩) :=
    fun hlt => (hwrite _).trans (Sink.receive_of_lt rfl hlt)
  refine ⟨⟨fun hok => Nat.le_of_not_lt fun hlt => ?_, fun hle => congrArg Prod.fst (hfits hle)⟩, hfits,
    hexceeds, fun chunks hchunks => ?_⟩
  · rw [hexceeds hlt] at hok
    cases hok
  · rw [Writing.into_forM_bytes, hchunks, hwrite]

/-- A report on a file that could not be read, below a root whose name takes two bytes. -/
def unreadableReport : ScanReport := ⟨"é", [⟨"B.java", [], some "unreadable"⟩], ⟨1, 1, 0, 0, 0⟩⟩

/-- The room ends between the two bytes of a character, and after it the sink would take everything; or it
    ends with the report. -/
theorem writeTo_exact_unreadable :
    let style : OutputStyle := ⟨.terminal, false, true⟩
    let full := (unreadableReport.writeTo style .unlimited).2.taken
    let refusal : IoError := .other "sink is full"
    full.length = 228 ∧ (full.take 59).getLast? = some 0xC3 ∧
    unreadableReport.writeTo style ⟨[], some 59, refusal, none⟩ =
      (.error refusal, ⟨full.take 59, none, refusal, none⟩) ∧
    unreadableReport.writeTo style ⟨[], some 228, refusal, none⟩ =
      (.ok (), ⟨full, some 0, refusal, none⟩) ∧
    ((full.map fun b => [b]).forM Writing.bytes).into ⟨[], some 59, refusal, none⟩ =
      unreadableReport.writeTo style ⟨[], some 59, refusal, none⟩ := by
  intro style full refusal
  obtain ⟨-, hfull, hlimited⟩ := writeTo_exact unreadableReport style
  have hlength : full.length = 228 := by
    rw [show full = _ from hfull]
    decide +kernel
  have hlast : (full.take 59).getLast? = some 0xC3 := by
    rw [show full = _ from hfull]
    decide +kernel
  obtain ⟨-, -, hexceeds, hcut⟩ := hlimited 59 refusal none
  obtain ⟨-, hfits, -, -⟩ := hlimited 228 refusal none
  refine ⟨hlength, hlast, hexceeds (by rw [show List.length _ = 228 from hlength]; decide), ?_, hcut _ ?_⟩
  · have hend := hfits (Nat.le_of_eq hlength)
    rw [show List.length _ = 228 from hlength] at hend
    exact hend
  · rw [← List.flatMap_def, List.flatMap_singleton']

end ScanReport

end AccessorScan
