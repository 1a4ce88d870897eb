/-!
# `AccessorScan.Files.Path` — file paths

A path is kept as it is written and compared by its components. Repeated slashes and the component
`.` do not count, unless `.` is what a relative path starts with.

## Contents
- `PathComponent` with its order, `FilePath.components`.
- `FilePath.parent?`, `join`, `fileName?`, `extension?`, `isJava`.
- `FilePath.ancestors`: a path and its parents up to a depth.
- `FilePath.before`: the order in which files are listed.
-/

namespace AccessorScan

inductive PathComponent where
  | root
  /-- The directory itself, where a relative path starts with it. -/
  | current
  /-- The directory above. -/
  | up
  | name (text : String)
  deriving DecidableEq, Repr

structure FilePath where
  text : String
  deriving DecidableEq, Repr

namespace PathComponent

/-- The component for the characters between two slashes; none for no characters and for `.`, unless
it is `first` in a relative path. -/
def ofSegment? (first : Bool) (segment : List Char) : Option PathComponent :=
  match segment with
  | [] => none
  | ['.'] => if first then some current else none
  | ['.', '.'] => some up
  | cs => some (name (String.ofList cs))

/-- The place of the form of a component in the order of components. -/
def rank : PathComponent → Nat
  | root => 0
  | current => 1
  | up => 2
  | name _ => 3

/-- The order of components: by form, and names by their characters. -/
def compare (a b : PathComponent) : Ordering :=
  match a, b with
  | name s, name t => Ord.compare s t
  | a, b => Ord.compare a.rank b.rank

end PathComponent

namespace FilePath

/-- The components of the characters of a path, each with the number of characters up to its end.
`start` tells where the current segment starts and `segment` holds it in reverse. -/
def located (start : Nat) (segment : List Char) : List Char → List (PathComponent × Nat)
  | [] => finish start segment
  | c :: rest =>
      if c = '/' then finish start segment ++ located (start + segment.length + 1) [] rest
      else located start (c :: segment) rest
where
  finish (start : Nat) (segment : List Char) : List (PathComponent × Nat) :=
    match PathComponent.ofSegment? (start == 0) segment.reverse with
    | some c => [(c, start + segment.length)]
    | none => []

def isAbsolute (p : FilePath) : Bool := p.text.toList.head? == some '/'

/-- The components of a path, each with the number of characters up to its end. -/
def locatedComponents (p : FilePath) : List (PathComponent × Nat) :=
  let cs := p.text.toList
  if p.isAbsolute then (.root, 1) :: located 1 [] (cs.drop 1) else located 0 [] cs

def components (p : FilePath) : List PathComponent := p.locatedComponents.map (·.1)

/-- The path without its last component. The root and the empty path have none. -/
def parent? (p : FilePath) : Option FilePath :=
  match p.locatedComponents.reverse with
  | [] => none
  | (.root, _) :: _ => none
  | [_] => some ⟨""⟩
  | _ :: (_, size) :: _ => some ⟨String.ofList (p.text.toList.take size)⟩

/-- The path `q` as seen from `p`; an absolute path stands for itself. -/
def join (p q : FilePath) : FilePath :=
  if q.isAbsolute then q
  else if p.text.isEmpty || p.text.toList.getLast? == some '/' then ⟨p.text ++ q.text⟩
  else ⟨p.text ++ "/" ++ q.text⟩

/-- The last component, if it is a name. -/
def fileName? (p : FilePath) : Option String :=
  match p.components.getLast? with
  | some (.name n) => some n
  | _ => none

/-- What follows the last point of the file name. A name whose only point comes first has none. -/
def extension? (p : FilePath) : Option String := do
  let name := (← p.fileName?).toList
  let after := name.reverse.takeWhile (· != '.')
  let before := name.dropLast.length - after.length
  if after.length < name.length ∧ before > 0 then some (String.ofList after.reverse) else none

/-- The file name ends in `.java`, with ASCII letters in either case. -/
def isJava (p : FilePath) : Bool :=
  p.extension?.any fun e => e.toList.map Char.toLower == ['j', 'a', 'v', 'a']

/-- The path and its parents, at most `depth` of them. -/
def ancestors (p : FilePath) : Nat → List FilePath
  | 0 => []
  | depth + 1 =>
      p :: match p.parent? with
        | some q => ancestors q depth
        | none => []

/-- The first path comes before the second one, component by component. -/
def before (p q : FilePath) : Bool := go p.components q.components
where
  go : List PathComponent → List PathComponent → Bool
    | [], [] => false
    | [], _ :: _ => true
    | _ :: _, [] => false
    | a :: as, b :: bs =>
        match PathComponent.compare a b with
        | .lt => true
        | .gt => false
        | .eq => go as bs

end FilePath

end AccessorScan
