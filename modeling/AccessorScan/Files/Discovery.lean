import AccessorScan.Files.Glob
import AccessorScan.Files.IgnoreRules

/-!
# `AccessorScan.Files.Discovery` — the source files below a directory

Discovery goes through a directory and all below it, hidden ones too, but not through what ignore
files rule out. The ignore files of the directories above the starting point count as well.

## Contents
- `IgnoreLevel`: the ignore files of one directory; `isIgnored`.
- `walk`: the source files that are reached.
- `discover`: all source files below a starting point, in order; `splitExcluded`: those that no exclude
  pattern matches.
-/

namespace AccessorScan

/-! ## Ignore files of a directory -/

/-- The ignore files of one directory, by how much they count. (What a user ignores everywhere, by a file
outside of the directories that are searched, is not taken into account.) -/
structure IgnoreLevel where
  /-- How many names lead from the root to the directory. -/
  depth : Nat
  /-- `.ignore`, which counts most. -/
  plain : IgnoreFile
  /-- `.gitignore` -/
  tracked : IgnoreFile
  /-- `.git/info/exclude` -/
  unshared : IgnoreFile

namespace IgnoreLevel

/-- The ignore file under these names. What cannot be read holds no rules. -/
def fileUnder (directory : FileNode) (names : List String) : IgnoreFile :=
  match directory.get? names with
  | some (.file bytes) => IgnoreFile.ofBytes bytes
  | _ => .empty

def plainNames : List String := [".ignore"]
def trackedNames : List String := [".gitignore"]
def unsharedNames : List String := [".git", "info", "exclude"]

def ofDirectory (depth : Nat) (directory : FileNode) : IgnoreLevel :=
  ⟨depth, fileUnder directory plainNames, fileUnder directory trackedNames,
    fileUnder directory unsharedNames⟩

/-- What the directory's faulty lines are told as. -/
def faultMessages (l : IgnoreLevel) (directory : FilePath) : List String :=
  let tell (names : List String) (f : IgnoreFile) : List String :=
    f.toldFaults.map fun fault =>
      (directory.join ⟨"/".intercalate names⟩).text ++ ": " ++ fault.message
  tell plainNames l.plain ++ tell trackedNames l.tracked ++ tell unsharedNames l.unshared

end IgnoreLevel

/-- What one kind of ignore file says about the path under these names. The nearest directory that
says something decides. -/
def decideByKind (kind : IgnoreLevel → IgnoreFile) (levels : List IgnoreLevel)
    (names : List String) (isDirectory : Bool) : Option IgnoreDecision :=
  levels.findSome? fun l =>
    decideByRules (kind l).rules ("/".intercalate (names.drop l.depth)) isDirectory

/-- Whether the path under these names is ruled out. `levels` holds the directories above it, the
nearest one first. -/
def isIgnored (levels : List IgnoreLevel) (names : List String) (isDirectory : Bool) : Bool :=
  let decided (kind : IgnoreLevel → IgnoreFile) := decideByKind kind levels names isDirectory
  ((decided IgnoreLevel.plain).or
    ((decided IgnoreLevel.tracked).or (decided IgnoreLevel.unshared))) == some .ignored

/-! ## Walking -/

mutual

/-- The source files below a node that is reached under `path`, and under `names` from the root. -/
def walk (levels : List IgnoreLevel) (path : FilePath) (names : List String) :
    FileNode → List FilePath
  | .file _ => if path.isJava then [path] else []
  | .directory entries =>
      walkEntries (IgnoreLevel.ofDirectory names.length (.directory entries) :: levels) path names
        entries
  | .device _ => []

def walkEntries (levels : List IgnoreLevel) (path : FilePath) (names : List String) :
    List (String × FileNode) → List FilePath
  | [] => []
  | (name, n) :: rest =>
      (if isIgnored levels (names ++ [name]) n.isDirectory then []
        else walk levels (path.join ⟨name⟩) (names ++ [name]) n) ++
      walkEntries levels path names rest

end

/-- The ignore files of the directories above the one under these names, the nearest one first, each
with its directory. -/
def levelsAbove (root : FileNode) (names : List String) : List (FilePath × IgnoreLevel) :=
  (List.range names.length).reverse.filterMap fun n =>
    (root.get? (names.take n)).map fun directory =>
      (FileSystem.pathOf (names.take n), IgnoreLevel.ofDirectory n directory)

/-! ## Finding -/

inductive WalkError where
  /-- The starting point cannot be looked at. -/
  | unreachable (root : FilePath) (cause : IoError)
  /-- Ignore files above the starting point have faulty lines. -/
  | ignoreFiles (messages : List String)
  deriving DecidableEq, Repr

def WalkError.message : WalkError → String
  | unreachable root cause =>
      root.text ++ ": IO error for operation on " ++ root.text ++ ": " ++ cause.message
  | ignoreFiles messages => "\n".intercalate messages

/-- Paths in their order. -/
def sortPaths (ps : List FilePath) : List FilePath := ps.mergeSort fun p q => !q.before p

/-- A starting point of this name, with or without a slash after it, stands for what comes in from
outside, where there are no files. -/
def standsForInput (root : FilePath) : Bool := root.components == [.name "-"]

/-- The source files at or below a starting point that no ignore file rules out. A starting point
that is a file is taken whatever its name. -/
def discover (fs : FileSystem) (root : FilePath) : Except WalkError (List FilePath) :=
  if fs.isFile root then .ok [root]
  else if standsForInput root then .ok []
  else
    match fs.locate root with
    | .error e => .error (.unreachable root e)
    | .ok place =>
        match fs.node? place, place with
        | some (.directory entries), .at names =>
            let above := levelsAbove fs.root names
            let messages := above.reverse.flatMap fun (directory, l) => l.faultMessages directory
            if messages.isEmpty then
              .ok (sortPaths (walk (above.map (·.2)) root names (.directory entries)))
            else .error (.ignoreFiles messages)
        | _, _ => .ok []

/-- The files of a discovery that exclude patterns leave, and those they take away. A starting point
that is a file is left. -/
def splitExcluded (fs : FileSystem) (root : FilePath) (excludes : List Glob) (ps : List FilePath) :
    List FilePath × List FilePath :=
  if fs.isFile root then (ps, [])
  else ps.partition fun p => !excludes.any fun g => g.fits p

end AccessorScan
