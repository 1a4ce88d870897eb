import AccessorScan.Report.Sink

/-!
# `AccessorScan.Report.Filing` — writing into files

A file is created, or emptied where there is one, before the first byte is offered to it. Then it takes what
there is room for. So work that ends with an error leaves a file with the beginning of what it writes.

## Contents
- `FileSystem.roomIn`: the room in what a path leads to; `FileSystem.keeping`: what was taken.
- `Writing.intoFile`: work that writes into a file.
-/

namespace AccessorScan

namespace FileSystem

/-- The room in what a path leads to: for a file that on the disk, for a device its own. -/
def roomIn (fs : FileSystem) (p : FilePath) (disk : Room) : Room :=
  match fs.lookup p with
  | .ok (.device full) => if full then .limited 0 .noSpace else .ample
  | _ => disk

/-- The file system when the file that was created under this path has taken these bytes. -/
def keeping (created : FileSystem) (p : FilePath) (bytes : List UInt8) : FileSystem :=
  match created.write p ⟨bytes.toArray⟩ with
  | .ok written => written
  | .error _ => created

end FileSystem

/-- How the work ends that writes into a file, and the file system after it; or why the file cannot be
created. What is written gathers in a buffer on its way, which shows nowhere: a disk that is full stays full,
and so the file ends up with the same bytes. -/
def Writing.intoFile {α : Type} (w : Writing α) (fs : FileSystem) (p : FilePath) (disk : Room) :
    Except IoError (Except IoError α × FileSystem) := do
  let created ← fs.write p ByteArray.empty
  let (result, sink) := w.into (created.roomIn p disk).sink
  return (result, created.keeping p sink.taken)

end AccessorScan
