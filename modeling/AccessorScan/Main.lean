import AccessorScan.Command.Program

/-!
# `AccessorScan.Main` — the program on a real disk

What a command may look at is read from the disk into a file system value, the run is computed, and
what it changes is written back.

## Contents
- `Disk.node`, `Disk.addSurroundings`: parts of the disk as values.
- `Disk.files`: the file system as a command sees it.
- `main`.
-/

namespace AccessorScan.Disk

/-- The names on the way from the root to a path. -/
def namesOf (path : String) : List String :=
  ((path.toList.splitOn '/').map String.ofList).filter (!·.isEmpty)

/-- Files of these names are read; of others it counts only that they are there. -/
def isRead (name : String) : Bool :=
  (FilePath.mk name).isJava || [".ignore", ".gitignore", "exclude", Config.fileName].contains name

/-- What is at a place on the disk, with all below it. -/
partial def node (readAll : Bool) (e : IO.FS.DirEntry) : IO (Option FileNode) := do
  try
    if ← e.path.isDir then
      let children ← (← e.path.readDir).toList.filterMapM fun c => do
        if (← c.path.symlinkMetadata).type == .symlink && (← c.path.isDir) then return none
        return (← node false c).map fun n => (c.fileName, n)
      return some (.directory children)
    else if !(← e.path.pathExists) then return none
    else if (← e.path.metadata).type == .other then return some (.device false)
    else if readAll || isRead e.fileName then return some (.file (← IO.FS.readBinFile e.path))
    else return some (.file ByteArray.empty)
  catch _ => return none

/-- The files of a directory that bear on what is below it. -/
def besides : List (List String) :=
  [[".ignore"], [".gitignore"], [".git", "info", "exclude"], [Config.fileName]]

/-- A path on the disk under these names. -/
def pathUnder (names : List String) : String := (FileSystem.pathOf names).text

/-- A file system value with what is on the disk under these names added. -/
def add (root : FileNode) (names : List String) : IO FileNode := do
  match ← node true ⟨pathUnder names.dropLast, names.getLast?.getD ""⟩ with
  | some n => return FileNode.put n names root
  | none => return root

/-- A file system value with the directories above the place of these names, and with the files in
them that bear on it. -/
def addSurroundings (root : FileNode) (names : List String) : IO FileNode := do
  (List.range names.length).foldlM (fun root n => do
    let directory := names.take n
    let root := if (root.get? directory).isSome then root
      else FileNode.put (.directory []) directory root
    besides.foldlM (fun root file => do
      if (root.get? (directory ++ file)).isSome then return root else add root (directory ++ file))
      root) root

/-- The names of a path as seen from the directory under `here`, without steps upwards. -/
def resolve (here : List String) (p : FilePath) : List String :=
  (namesOf p.text).foldl
    (fun names segment =>
      if segment = "." then names
      else if segment = ".." then names.dropLast
      else names ++ [segment])
    (if p.isAbsolute then [] else here)

/-- The paths that a command looks at. -/
def pathsOf : Command → List FilePath
  | .scan c => [c.path] ++ c.config.toList ++ c.output.toList
  | .check file _ => [file]
  | .init _ => [⟨Config.fileName⟩]

/-- The path that a command may write to. -/
def targetOf : Command → Option FilePath
  | .scan c => c.output
  | .check _ _ => none
  | .init _ => some ⟨Config.fileName⟩

/-- The file system as a command sees it from the directory under these names. -/
def files (here : List String) (c : Command) : IO FileSystem := do
  let places := (pathsOf c).map (resolve here)
  let around ← (places ++ [here ++ [""]]).foldlM addSurroundings (.directory [])
  return ⟨← places.foldlM add around, .at here⟩

/-- The variables that a run depends on. -/
def variableNames : List String :=
  ["ACCESSORMAP_CONFIG", "RUST_LOG", "RUST_LOG_STYLE", "NO_COLOR", "CLICOLOR", "CLICOLOR_FORCE",
    "TERM", "CI"]

def environment : IO Environment := do
  let entries ← variableNames.filterMapM fun name => do
    return (← IO.getEnv name).map fun value => (name, value)
  return ⟨entries, ← (← IO.getStdout).isTty, ← (← IO.getStderr).isTty⟩

/-- What a run left under a path is put on the disk. -/
def save (p : FilePath) (fs : FileSystem) : IO Unit := do
  match fs.lookup p with
  | .ok (.file bytes) => IO.FS.writeBinFile p.text bytes
  | _ => return

def finish (e : Ending) : IO UInt32 := do
  (← IO.getStdout).putStr e.printed
  (← IO.getStderr).putStr e.told
  return e.exit.toUInt32

end AccessorScan.Disk

open AccessorScan
def main (words : List String) : IO UInt32 := do
  let env ← Disk.environment
  match CommandLine.ofWords (env.get? "ACCESSORMAP_CONFIG") words with
  | .error e => Disk.finish (e.ending .ample ⟨.directory [], .at []⟩)
  | .ok l => do
      let here := Disk.namesOf (← IO.currentDir).toString
      let e := l.ending .able env (← Disk.files here l.command)
      match Disk.targetOf l.command with
      | some p => if e.exit = 0 then Disk.save p e.files
      | none => pure ()
      Disk.finish e
