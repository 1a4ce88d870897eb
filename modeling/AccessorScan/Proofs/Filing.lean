import AccessorScan.Proofs.FileChanges
import AccessorScan.Proofs.Writing
import AccessorScan.Report.Filing

/-!
# `Proofs.Filing` — what becomes of a file that is written

A file is created before anything is written into it, and then it takes what there is room for. So there are
three ways for it to go: it cannot be created, or it is a device, which keeps nothing, or it holds as much of
what is written as the disk takes. Which of them it is does not depend on the disk.

## Contents
- `Room.takes`: how writing ends, and what is taken; `Writing.Writes`: work that writes these bytes.
- `FileSystem.locate_of_target`, `FileSystem.lookup_of_target`: a file that can be written can be read.
- `FileSystem.write_of_free`, `FileSystem.readBytes_of_write`: what was written is read.
- `FileSystem.create_cases`: what creating a file comes to; `FileSystem.create_device`.
- `Writing.intoFile_of_device`; `Writing.intoFile_cases`: what becomes of any file, on any disk;
  `Writing.intoFile_of_isFile`.
-/

namespace AccessorScan

/-! ## Room -/

namespace Room

/-- How the writing of these bytes ends, and what is taken of them. -/
def takes : Room → List UInt8 → Except IoError Unit × List UInt8
  | ample, bs => (.ok (), bs)
  | limited n e, bs => if bs.length ≤ n then (.ok (), bs) else (.error e, bs.take n)

theorem receive_sink (room : Room) (bs : List UInt8) :
    (room.sink.receive bs).1 = (room.takes bs).1 ∧ (room.sink.receive bs).2.taken = (room.takes bs).2 := by
  cases room with
  | ample => exact ⟨rfl, rfl⟩
  | limited n e =>
      by_cases hfits : bs.length ≤ n
      · rw [takes, if_pos hfits, Sink.receive_of_le (s := sink (limited n e)) rfl hfits]
        exact ⟨rfl, rfl⟩
      · rw [takes, if_neg hfits, Sink.receive_of_lt (s := sink (limited n e)) rfl (Nat.lt_of_not_le hfits)]
        exact ⟨rfl, rfl⟩

/-- All is taken, or as much as fits. -/
theorem takes_cases (room : Room) (bs : List UInt8) :
    (room.takes bs = (.ok (), bs) ∧ ∀ n e, room = limited n e → bs.length ≤ n) ∨
      ∃ n e, room = limited n e ∧ n < bs.length ∧ room.takes bs = (.error e, bs.take n) := by
  cases room with
  | ample => exact .inl ⟨rfl, nofun⟩
  | limited n e =>
      by_cases hfits : bs.length ≤ n
      · refine .inl ⟨if_pos hfits, fun m e' hroom => ?_⟩
        cases hroom
        exact hfits
      · exact .inr ⟨n, e, rfl, Nat.lt_of_not_le hfits, if_neg hfits⟩

theorem takes_of_full {e : IoError} {bs : List UInt8} (hbs : bs ≠ []) :
    (limited 0 e).takes bs = (.error e, []) :=
  if_neg fun h => hbs (List.length_eq_zero_iff.mp (Nat.le_zero.mp h))

end Room

namespace Writing

/-- Work that writes these bytes, in pieces of any size. -/
def Writes (w : Writing Unit) (bs : List UInt8) : Prop := ∀ s, w.into s = s.receive bs

theorem writes_print (r : ScanReport) (style : OutputStyle) :
    (r.print style).Writes (utf8 (r.text style)) := r.writeTo_eq style

variable {w : Writing Unit} {bs : List UInt8}

theorem Writes.into_sink (h : w.Writes bs) (room : Room) :
    (w.into room.sink).1 = (room.takes bs).1 ∧ (w.into room.sink).2.taken = (room.takes bs).2 := by
  rw [h]
  exact room.receive_sink bs

end Writing

/-! ## Written files -/

namespace FileSystem

variable {fs gs : FileSystem} {p : FilePath} {names : List String} {bytes : ByteArray}

/-- What is under the names that a path can write is what the path leads to. -/
theorem locate_of_target (htarget : fs.target p = .ok names) (hthere : (fs.root.get? names).isSome = true) :
    fs.locate p = .ok (.at names) := by
  obtain ⟨parent, last, rfl, h⟩ := targets_of_target htarget
  have hsegments : segments p = (segments p).dropLast ++ [last] := by
    obtain ⟨before, hbefore⟩ := List.getLast?_eq_some_iff.mp h.ends
    rw [hbefore, List.dropLast_concat]
  have hstep : fs.step (.at parent) last = .ok (.at (parent ++ [last])) := by
    have hdots := h.noDots
    rw [not_or] at hdots
    refine step_at_eq_ok_iff.mpr ⟨h.opens, .inr (.inr ⟨?_, hdots.2, ?_, rfl⟩)⟩
    · rintro (hlast | hlast)
      · exact h.noSlash hlast
      · exact hdots.1 hlast
    · rw [opens?, Option.isSome_map]
      exact hthere
  unfold locate
  rw [h.nonempty, h.nonzero, hsegments, List.foldlM_append, h.follow]
  show (fs.step (.at parent) last >>= fun s => pure s) = _
  rw [hstep]
  rfl

theorem lookup_of_target {n : FileNode} (htarget : fs.target p = .ok names)
    (hnode : fs.root.get? names = some n) : fs.lookup p = .ok n := by
  have hlocate : fs.locate p = .ok (.at names) := locate_of_target htarget (by rw [hnode]; rfl)
  simp only [lookup, hlocate, node?, hnode, bind, Except.bind, pure, Except.pure]

/-- Where there is nothing or a file, a file can be written. -/
theorem write_of_free (htarget : fs.target p = .ok names)
    (hfree : ∀ n, fs.root.get? names = some n → n.isFile = true) (bytes : ByteArray) :
    fs.write p bytes = .ok { fs with root := FileNode.put (.file bytes) names fs.root } := by
  simp only [write, htarget, bind, Except.bind]
  cases hnode : fs.root.get? names with
  | none => rfl
  | some n =>
      have hfile := hfree n hnode
      cases n with
      | file old => rfl
      | directory entries => cases hfile
      | device full => cases hfile

/-- **What was written is read.** -/
theorem readBytes_of_write (htarget : fs.target p = .ok names)
    (hfree : ∀ n, fs.root.get? names = some n → n.isFile = true) (h : fs.write p bytes = .ok gs) :
    gs.target p = .ok names ∧ gs.root.get? names = some (.file bytes) ∧ gs.readBytes p = .ok bytes := by
  have htarget' : gs.target p = .ok names := (writesAt_of_write h).target_eq htarget
  have hnode : gs.root.get? names = some (.file bytes) := by
    obtain rfl := Except.ok.inj ((write_of_free htarget hfree bytes).symm.trans h)
    exact FileNode.get?_put _ names fs.root
  refine ⟨htarget', hnode, ?_⟩
  simp only [readBytes, lookup_of_target htarget' hnode, bind, Except.bind, pure, Except.pure]

/-- A file that is there keeps what it takes. -/
theorem readBytes_keeping {old : ByteArray} (htarget : fs.target p = .ok names)
    (hnode : fs.root.get? names = some (.file old)) (bytes : List UInt8) :
    (fs.keeping p bytes).readBytes p = .ok ⟨bytes.toArray⟩ ∧ fs.WritesAt p (fs.keeping p bytes) := by
  have hfree : ∀ n, fs.root.get? names = some n → n.isFile = true := by
    intro n hn
    obtain rfl := Option.some.inj (hnode.symm.trans hn)
    rfl
  have hwrite := write_of_free htarget hfree ⟨bytes.toArray⟩
  rw [keeping, hwrite]
  exact ⟨(readBytes_of_write htarget hfree hwrite).2.2, writesAt_of_write hwrite⟩

/-- A device can be opened and keeps nothing. -/
theorem create_device {full : Bool} (htarget : fs.target p = .ok names)
    (hnode : fs.root.get? names = some (.device full)) :
    fs.write p ByteArray.empty = .ok fs ∧ ∀ bytes, fs.keeping p bytes = fs := by
  constructor
  · simp only [write, htarget, bind, Except.bind, hnode]
    exact if_neg fun h => absurd h.2 (Nat.lt_irrefl 0)
  · intro bytes
    simp only [keeping, write, htarget, bind, Except.bind, hnode]
    by_cases hfull : full = true ∧ (ByteArray.mk bytes.toArray).size > 0
    · rw [if_pos hfull]
    · rw [if_neg hfull]
      rfl

/-- What can be created is a device, or else there is an empty file afterwards. -/
theorem create_cases {created : FileSystem} (h : fs.write p ByteArray.empty = .ok created) :
    (∃ names full, fs.target p = .ok names ∧ fs.root.get? names = some (.device full)) ∨
      ∃ names, created.target p = .ok names ∧ created.root.get? names = some (.file ByteArray.empty) := by
  obtain ⟨names, htarget⟩ : ∃ names, fs.target p = .ok names := by
    cases htarget : fs.target p with
    | ok names => exact ⟨names, rfl⟩
    | error e => simp [write, htarget, bind, Except.bind] at h
  by_cases hfree : ∀ n, fs.root.get? names = some n → n.isFile = true
  · obtain ⟨htarget', hnode, -⟩ := readBytes_of_write htarget hfree h
    exact .inr ⟨names, htarget', hnode⟩
  · simp only [Classical.not_forall] at hfree
    obtain ⟨n, hnode, hfile⟩ := hfree
    cases n with
    | file old => exact absurd rfl hfile
    | directory entries => simp [write, htarget, bind, Except.bind, hnode] at h
    | device full => exact .inl ⟨names, full, htarget, hnode⟩

end FileSystem

/-! ## Work that writes into a file -/

namespace Writing

open FileSystem (create_cases)

variable {w : Writing Unit} {bs : List UInt8}

theorem intoFile_of_create {fs created : FileSystem} {p : FilePath} (hw : w.Writes bs)
    (hcreate : fs.write p ByteArray.empty = .ok created) (disk : Room) :
    w.intoFile fs p disk = .ok (((created.roomIn p disk).takes bs).1,
      created.keeping p ((created.roomIn p disk).takes bs).2) := by
  obtain ⟨hend, htaken⟩ := hw.into_sink (created.roomIn p disk)
  rw [← hend, ← htaken]
  simp only [intoFile, hcreate, bind, Except.bind, pure, Except.pure]

theorem intoFile_of_device {fs : FileSystem} {p : FilePath} {names : List String} {full : Bool}
    (hw : w.Writes bs) (htarget : fs.target p = .ok names) (hnode : fs.root.get? names = some (.device full))
    (disk : Room) :
    w.intoFile fs p disk = .ok (if full = true ∧ bs ≠ [] then .error .noSpace else .ok (), fs) := by
  obtain ⟨hcreate, hkeeping⟩ := FileSystem.create_device htarget hnode
  rw [intoFile_of_create hw hcreate, FileSystem.roomIn, FileSystem.lookup_of_target htarget hnode, hkeeping]
  cases full with
  | false => rfl
  | true =>
      by_cases hbs : bs = []
      · rw [hbs]
        rfl
      · simp only [if_true, Room.takes_of_full hbs, hbs, ne_eq, not_false_eq_true, and_self]

/-- **The disk decides how much, and nothing else.** Either the file cannot be created, or it is a device, or
    there is a file that holds what was taken. -/
theorem intoFile_cases (hw : w.Writes bs) (fs : FileSystem) (p : FilePath) :
    (∃ e, fs.write p ByteArray.empty = .error e ∧ ∀ disk, w.intoFile fs p disk = .error e) ∨
    (∃ full, fs.lookup p = .ok (.device full) ∧ ∀ disk, w.intoFile fs p disk =
      .ok (if full = true ∧ bs ≠ [] then .error .noSpace else .ok (), fs)) ∨
    ∃ holding : List UInt8 → FileSystem,
      (∀ left, (holding left).readBytes p = .ok ⟨left.toArray⟩ ∧ fs.WritesAt p (holding left)) ∧
      ∀ disk, w.intoFile fs p disk = .ok ((disk.takes bs).1, holding (disk.takes bs).2) := by
  cases hcreate : fs.write p ByteArray.empty with
  | error e =>
      refine .inl ⟨e, rfl, fun disk => ?_⟩
      simp only [intoFile, hcreate, bind, Except.bind]
  | ok created =>
      right
      obtain ⟨names, full, htarget, hnode⟩ | ⟨names, htarget, hnode⟩ := create_cases hcreate
      · exact .inl ⟨full, FileSystem.lookup_of_target htarget hnode, intoFile_of_device hw htarget hnode⟩
      · -- the file that was created is opened under the same names, whatever was there before
        refine .inr ⟨created.keeping p, fun left => ?_, fun disk => ?_⟩
        · obtain ⟨hread, hwrites⟩ := FileSystem.readBytes_keeping htarget hnode left
          exact ⟨hread, (FileSystem.writesAt_of_write hcreate).trans hwrites⟩
        · have hroom : created.roomIn p disk = disk := by
            rw [FileSystem.roomIn, FileSystem.lookup_of_target htarget hnode]
          rw [intoFile_of_create hw hcreate, hroom]

end Writing

end AccessorScan
