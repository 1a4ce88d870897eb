import AccessorScan.Files.Path

/-!
# `AccessorScan.Files.System` — a file system as a value

Files, directories and devices below one root, and the directory that relative paths start from.
There are no links and no permissions. Operations that change something give a new file system.

## Contents
- `IoError` with its message.
- `FileNode` and its operations on lists of names.
- `FileSystem`: `locate`, `readBytes`, `readText`, `isFile`, `exists?`, `currentDirectory`.
- `FileSystem.write`, `makeDirectories`, `remove`: changes by paths. How much there is room for is not
  decided here.
-/

namespace AccessorScan

/-! ## Errors -/

inductive IoError where
  | notFound
  | notDirectory
  | isDirectory
  | noSpace
  /-- Bytes that are no UTF-8 were to be read as text. -/
  | invalidText
  /-- A path that holds the character zero. -/
  | invalidName
  /-- Any other error, by its text. A call that was interrupted is none: it is made again. -/
  | other (text : String)
  deriving DecidableEq, Repr

def IoError.message : IoError → String
  | notFound => "No such file or directory (os error 2)"
  | notDirectory => "Not a directory (os error 20)"
  | isDirectory => "Is a directory (os error 21)"
  | noSpace => "No space left on device (os error 28)"
  | invalidText => "stream did not contain valid UTF-8"
  | invalidName => "file name contained an unexpected NUL byte"
  | other text => text

/-- What is said where a reading does not end before the memory does. -/
def IoError.exhausted : IoError := .other "out of memory"

/-! ## Nodes -/

inductive FileNode where
  | file (bytes : ByteArray)
  | directory (entries : List (String × FileNode))
  /-- A device keeps nothing. One that is full takes nothing and is read as zeros without end; any other
  one takes everything and is read as empty. -/
  | device (full : Bool)

namespace FileNode

def entries : FileNode → List (String × FileNode)
  | directory es => es
  | file _ => []
  | device _ => []

def isDirectory : FileNode → Bool
  | directory _ => true
  | _ => false

def isFile : FileNode → Bool
  | file _ => true
  | _ => false

/-- The entry of that name in a directory. -/
def child? (n : FileNode) (name : String) : Option FileNode :=
  (n.entries.find? fun e => e.1 == name).map (·.2)

/-- The node under these names. -/
def get? : FileNode → List String → Option FileNode
  | n, [] => some n
  | n, name :: names => (n.child? name).bind fun c => c.get? names

/-- A directory with the entry of that name replaced or added. -/
def putChild (n : FileNode) (name : String) (c : FileNode) : FileNode :=
  if (n.child? name).isSome then
    .directory (n.entries.map fun e => if e.1 == name then (name, c) else e)
  else .directory (n.entries ++ [(name, c)])

/-- The node with the one under these names replaced or added; what is missing on the way becomes a
directory. -/
def put (c : FileNode) : List String → FileNode → FileNode
  | [], _ => c
  | name :: names, n =>
      n.putChild name (put c names ((n.child? name).getD (.directory [])))

/-- The node without the one under these names. -/
def erase : List String → FileNode → FileNode
  | [], n => n
  | [name], n => .directory (n.entries.filter fun e => e.1 != name)
  | name :: names, n =>
      match n.child? name with
      | some c => n.putChild name (erase names c)
      | none => n

end FileNode

/-! ## Places -/

/-- Where a path leads. -/
inductive Place where
  /-- These names from the root. -/
  | at (names : List String)
  /-- An empty directory that was removed from the directory under these names. -/
  | removed (parent : List String)
  deriving DecidableEq, Repr

structure FileSystem where
  root : FileNode
  /-- Where relative paths start. -/
  here : Place

namespace FileSystem

/-- The node at a place. -/
def node? (fs : FileSystem) : Place → Option FileNode
  | .at names => fs.root.get? names
  | .removed _ => some (.directory [])

/-- One part of a path, as seen from a directory. -/
def step (fs : FileSystem) (p : Place) (segment : String) : Except IoError Place :=
  match fs.node? p with
  | some (.directory _) =>
      if segment = "" ∨ segment = "." then .ok p
      else
        match p with
        | .at names =>
            if segment = ".." then .ok (.at names.dropLast)
            else if (fs.root.get? (names ++ [segment])).isSome then .ok (.at (names ++ [segment]))
            else .error .notFound
        | .removed parent => if segment = ".." then .ok (.at parent) else .error .notFound
  | some _ => .error .notDirectory
  | none => .error .notFound

/-- The texts between the slashes of a path. -/
def segments (p : FilePath) : List String :=
  (p.text.toList.splitOn '/').map String.ofList

/-- Where a path starts. -/
def start (fs : FileSystem) (p : FilePath) : Place := if p.isAbsolute then .at [] else fs.here

/-- The place of what exists under a path. -/
def locate (fs : FileSystem) (p : FilePath) : Except IoError Place :=
  if p.text.isEmpty then .error .notFound
  else if p.text.toList.any fun c => c.toNat == 0 then .error .invalidName
  else (segments p).foldlM fs.step (fs.start p)

/-- What exists under a path. -/
def lookup (fs : FileSystem) (p : FilePath) : Except IoError FileNode := do
  match fs.node? (← fs.locate p) with
  | some n => return n
  | none => .error .notFound

/-! ## Reading -/

def readBytes (fs : FileSystem) (p : FilePath) : Except IoError ByteArray := do
  match ← fs.lookup p with
  | .file bytes => return bytes
  | .directory _ => .error .isDirectory
  | .device full => if full then .error .exhausted else return ByteArray.empty

def readText (fs : FileSystem) (p : FilePath) : Except IoError String := do
  match String.fromUTF8? (← fs.readBytes p) with
  | some text => return text
  | none => .error .invalidText

def isFile (fs : FileSystem) (p : FilePath) : Bool :=
  match fs.lookup p with
  | .ok n => n.isFile
  | .error _ => false

def isDirectory (fs : FileSystem) (p : FilePath) : Bool :=
  match fs.lookup p with
  | .ok n => n.isDirectory
  | .error _ => false

def exists? (fs : FileSystem) (p : FilePath) : Bool := (fs.lookup p).isOk

/-- The absolute path of names from the root. -/
def pathOf (names : List String) : FilePath := ⟨"/" ++ "/".intercalate names⟩

/-- The absolute path of the directory that relative paths start from. -/
def currentDirectory (fs : FileSystem) : Except IoError FilePath :=
  match fs.here with
  | .at names => .ok (pathOf names)
  | .removed _ => .error .notFound

/-- The same files as seen from another directory. -/
def seenFrom (fs : FileSystem) (p : FilePath) : Except IoError FileSystem := do
  let place ← fs.locate p
  match fs.node? place with
  | some (.directory _) => return { fs with here := place }
  | some _ => .error .notDirectory
  | none => .error .notFound

/-! ## Changing -/

/-- The names under which a file is created or replaced. -/
def target (fs : FileSystem) (p : FilePath) : Except IoError (List String) :=
  let parts := segments p
  match parts.getLast? with
  | none => .error .notFound
  | some last =>
      if p.text.isEmpty then .error .notFound
      else if p.text.toList.any fun c => c.toNat == 0 then .error .invalidName
      else if last = "" then
        match parts.dropLast.foldlM fs.step (fs.start p) with
        | .ok place => if (fs.node? place).any FileNode.isDirectory then .error .isDirectory
            else .error .notDirectory
        | .error e =>
            match parts.dropLast.dropLast.foldlM fs.step (fs.start p), e with
            | .ok _, .notFound => .error .isDirectory
            | _, e => .error e
      else do
        let parent ← parts.dropLast.foldlM fs.step (fs.start p)
        match fs.node? parent with
        | some (.directory _) =>
            if last = "." ∨ last = ".." then .error .isDirectory
            else
              match parent with
              | .at names => .ok (names ++ [last])
              | .removed _ => .error .notFound
        | some _ => .error .notDirectory
        | none => .error .notFound

/-- The file system with a file of these bytes created or put in place of another one, as far as the path
decides. A device keeps nothing. -/
def write (fs : FileSystem) (p : FilePath) (bytes : ByteArray) : Except IoError FileSystem := do
  let names ← fs.target p
  match fs.root.get? names with
  | some (.directory _) => .error .isDirectory
  | some (.device full) => if full ∧ bytes.size > 0 then .error .noSpace else return fs
  | some (.file _) => return { fs with root := FileNode.put (.file bytes) names fs.root }
  | none => return { fs with root := FileNode.put (.file bytes) names fs.root }

/-- One part of a path, with a directory made where there is nothing. -/
def stepMaking (state : FileSystem × Place) (segment : String) :
    Except IoError (FileSystem × Place) :=
  let (fs, place) := state
  match fs.step place segment, place with
  | .ok next, _ => .ok (fs, next)
  | .error .notFound, .at names =>
      let made := names ++ [segment]
      .ok ({ fs with root := FileNode.put (.directory []) made fs.root }, .at made)
  | .error e, _ => .error e

/-- The file system with a directory under this path and all directories above it. -/
def makeDirectories (fs : FileSystem) (p : FilePath) : Except IoError FileSystem := do
  if p.text.isEmpty then return fs
  let (fs, place) ← (segments p).foldlM stepMaking (fs, fs.start p)
  if (fs.node? place).any FileNode.isDirectory then return fs else .error .notDirectory

/-- The file system without what exists under this path. -/
def remove (fs : FileSystem) (p : FilePath) : Except IoError FileSystem := do
  match ← fs.locate p with
  | .at [] => .error .isDirectory
  | .at names =>
      if fs.here = .at names then .error .isDirectory
      else return { fs with root := FileNode.erase names fs.root }
  | .removed _ => .error .notFound

end FileSystem

end AccessorScan
