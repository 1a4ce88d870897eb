import AccessorScan.Files.System
import Mathlib.Tactic.SplitIfs

/-!
# `Proofs.Places` — where paths lead

A path is followed from one directory to the next. Nothing counts on the way but which names lead to
something and which of these to directories.

## Contents
- `Sight`: what is at a place, without what is below it; `FileSystem.sight?`.
- `FileSystem.opens?`: whether something is there and can be passed.
- `FileSystem.step_congr`, `locate_congr`: the same places open, so paths lead to the same places.
- `FileSystem.step_mono`, `follow_mono`: more places open, and paths lead where they did.
- `FileSystem.readBytes_congr`: what is read is what is seen where the path leads; `readText_of_locate`.
-/

namespace AccessorScan

/-- What is at a place, without what is below it. -/
inductive Sight where
  | file (bytes : ByteArray)
  | directory
  | device (full : Bool)

def Sight.isDirectory : Sight → Bool
  | directory => true
  | _ => false

def FileNode.sight : FileNode → Sight
  | .file bytes => .file bytes
  | .directory _ => .directory
  | .device full => .device full

namespace FileSystem

def sight? (fs : FileSystem) (names : List String) : Option Sight :=
  (fs.root.get? names).map FileNode.sight

/-- Whether what is under these names is a directory. -/
def opens? (fs : FileSystem) (names : List String) : Option Bool :=
  (fs.root.get? names).map FileNode.isDirectory

variable {fs gs : FileSystem}

/-! ## Following a path -/

theorem step_at (fs : FileSystem) (names : List String) (segment : String) :
    fs.step (.at names) segment =
      match fs.opens? names with
      | some true =>
          if segment = "" ∨ segment = "." then .ok (.at names)
          else if segment = ".." then .ok (.at names.dropLast)
          else if (fs.opens? (names ++ [segment])).isSome then .ok (.at (names ++ [segment]))
          else .error .notFound
      | some false => .error .notDirectory
      | none => .error .notFound := by
  simp only [step, opens?, node?, Option.isSome_map]
  rcases fs.root.get? names with _ | _ | _ | _ <;> rfl

theorem step_congr (hopens : ∀ names, fs.opens? names = gs.opens? names) : fs.step = gs.step := by
  funext place segment
  cases place with
  | «at» names => rw [step_at, step_at, hopens, hopens]
  | removed parent => rfl

theorem locate_congr (hopens : ∀ names, fs.opens? names = gs.opens? names) (hhere : fs.here = gs.here)
    (p : FilePath) : fs.locate p = gs.locate p := by
  unfold locate start
  rw [step_congr hopens, hhere]

/-- The steps that can be made: to stay, to go up, and to go down to what is there. -/
theorem step_at_eq_ok_iff {names : List String} {segment : String} {next : Place} :
    fs.step (.at names) segment = .ok next ↔
      fs.opens? names = some true ∧
        ((segment = "" ∨ segment = ".") ∧ next = .at names ∨
          ¬(segment = "" ∨ segment = ".") ∧ segment = ".." ∧ next = .at names.dropLast ∨
          ¬(segment = "" ∨ segment = ".") ∧ segment ≠ ".." ∧
            (fs.opens? (names ++ [segment])).isSome = true ∧ next = .at (names ++ [segment])) := by
  rw [step_at]
  rcases fs.opens? names with _ | _ | _
  · simp
  · simp
  · split_ifs with hstay hup hchild
    · simp [hstay, @eq_comm _ next]
    · simp [hup, @eq_comm _ next]
    · simp [hstay, hup, hchild, @eq_comm _ next]
    · simp [hstay, hup, hchild]

/-- A step stays possible where more places are open. -/
theorem step_mono (hopens : ∀ names b, fs.opens? names = some b → gs.opens? names = some b)
    {place next : Place} {segment : String} (h : fs.step place segment = .ok next) :
    gs.step place segment = .ok next := by
  cases place with
  | removed parent => exact h
  | «at» names =>
      obtain ⟨hnames, hnext⟩ := step_at_eq_ok_iff.mp h
      refine step_at_eq_ok_iff.mpr ⟨hopens names true hnames, ?_⟩
      obtain hstay | hup | ⟨hsegment, hnotUp, hchild, hdown⟩ := hnext
      · exact .inl hstay
      · exact .inr (.inl hup)
      · obtain ⟨b, hb⟩ := Option.isSome_iff_exists.mp hchild
        exact .inr (.inr ⟨hsegment, hnotUp, Option.isSome_iff_exists.mpr ⟨b, hopens _ b hb⟩, hdown⟩)

theorem follow_mono (hopens : ∀ names b, fs.opens? names = some b → gs.opens? names = some b)
    {segments : List String} {place last : Place}
    (h : segments.foldlM fs.step place = .ok last) : segments.foldlM gs.step place = .ok last := by
  induction segments generalizing place with
  | nil => exact h
  | cons segment rest ih =>
      rw [List.foldlM_cons] at h ⊢
      cases hstep : fs.step place segment with
      | error e => rw [hstep] at h; cases h
      | ok next =>
          rw [hstep] at h
          rw [step_mono hopens hstep]
          exact ih h

/-! ## Reading -/

theorem readBytes_of_locate {p : FilePath} {names : List String} (h : fs.locate p = .ok (.at names)) :
    fs.readBytes p =
      match fs.sight? names with
      | some (.file bytes) => .ok bytes
      | some .directory => .error .isDirectory
      | some (.device full) => if full then .error .exhausted else .ok ByteArray.empty
      | none => .error .notFound := by
  simp only [readBytes, lookup, h, sight?, node?, Except.bind, bind]
  rcases fs.root.get? names with _ | _ | _ | _ <;> rfl

/-- **Reading is looking.** Two file systems give the same bytes for a path that leads to the same
    place in both, where they look the same. -/
theorem readBytes_congr {p : FilePath} (hlocate : fs.locate p = gs.locate p)
    (hsight : ∀ names, fs.locate p = .ok (.at names) → fs.sight? names = gs.sight? names) :
    fs.readBytes p = gs.readBytes p := by
  cases hplace : fs.locate p with
  | error e =>
      simp only [readBytes, lookup, ← hlocate, hplace]
      rfl
  | ok place =>
      cases place with
      | removed parent =>
          simp only [readBytes, lookup, ← hlocate, hplace]
          rfl
      | «at» names =>
          rw [readBytes_of_locate hplace, readBytes_of_locate (hlocate ▸ hplace), hsight names hplace]

/-- Paths that lead to the same place are read alike. -/
theorem readText_of_locate {p q : FilePath} (h : fs.locate p = fs.locate q) :
    fs.readText p = fs.readText q := by
  simp only [readText, readBytes, lookup, h]

end FileSystem

end AccessorScan
