import AccessorScan.Syntax.Lexeme

/-!
# `AccessorScan.Syntax.Tree` — syntax trees

An ordered tree whose leaves are lexemes and comments. A node is named by its syntactic kind, and a
part that its parent tells apart from the others carries the role it plays there. Comments stand
among the children of the innermost node that has lexemes on both sides of them.

## Contents
- `Role`, `Token`, `Tree`.
- Views: `kind`, `isNamed`, `isComment`, `children`, `text`, `line`, `part?`, `parts`.
- `Tree.isBroken`: some part of the source had to be supplied or passed over.
-/

namespace AccessorScan

/-- What a child is to its parent. -/
inductive Role where
  | name
  | parameters
  | body
  | type
  | declarator
  | dimensions
  | object
  | field
  | left
  | operator
  | right
  deriving DecidableEq, Repr

/-- What a leaf holds. -/
structure Token where
  kind : String
  /-- Whether it counts as a part of its own, as names and literals do and punctuation does not. -/
  isNamed : Bool
  /-- The source lacks it. -/
  isMissing : Bool
  /-- The blanks before it. -/
  blank : String
  text : String
  line : Nat
  deriving DecidableEq, Repr

inductive Tree where
  | leaf (role : Option Role) (token : Token)
  | node (role : Option Role) (kind : String) (children : List Tree)

namespace Tree

def role? : Tree → Option Role
  | leaf r _ => r
  | node r _ _ => r

def kind : Tree → String
  | leaf _ t => t.kind
  | node _ k _ => k

def isNamed : Tree → Bool
  | leaf _ t => t.isNamed
  | node _ _ _ => true

def isMissing : Tree → Bool
  | leaf _ t => t.isMissing
  | node _ _ _ => false

def children : Tree → List Tree
  | leaf _ _ => []
  | node _ _ cs => cs

def isComment (t : Tree) : Bool := t.kind == "line_comment" || t.kind == "block_comment"

/-- The kind of a leaf for text that was passed over. -/
def skippedKind : String := "ERROR"

/-- A comment or text that was passed over: it may stand anywhere. -/
def isAside (t : Tree) : Bool := t.isComment || t.kind == skippedKind

/-- The same tree in the role `r` of its parent. -/
def withRole (r : Role) : Tree → Tree
  | leaf _ t => leaf (some r) t
  | node _ k cs => node (some r) k cs

/-! ## Text and place -/

mutual

/-- The source that a tree covers, with the blanks before it. -/
def covered : Tree → String
  | leaf _ t => t.blank ++ t.text
  | node _ _ cs => coveredAll cs

def coveredAll : List Tree → String
  | [] => ""
  | t :: ts => t.covered ++ coveredAll ts

end

mutual

/-- The source from the first character of a tree to its last. -/
def text : Tree → String
  | leaf _ t => t.text
  | node _ _ cs => textAll cs

def textAll : List Tree → String
  | [] => ""
  | t :: ts => t.text ++ coveredAll ts

end

mutual

/-- The line on which a tree starts. -/
def line : Tree → Nat
  | leaf _ t => t.line
  | node _ _ cs => lineAll cs

def lineAll : List Tree → Nat
  | [] => 0
  | t :: _ => t.line

end

mutual

/-- A part of the source was supplied or passed over. -/
def isBroken : Tree → Bool
  | leaf _ t => t.isMissing || t.kind == skippedKind
  | node _ _ cs => anyBroken cs

def anyBroken : List Tree → Bool
  | [] => false
  | t :: ts => t.isBroken || anyBroken ts

end

/-! ## Parts -/

/-- The children that count as parts of their own. -/
def namedChildren (t : Tree) : List Tree := t.children.filter Tree.isNamed

/-- The children in the role `r`. -/
def parts (t : Tree) (r : Role) : List Tree := t.children.filter fun c => c.role? == some r

/-- The first child in the role `r`. -/
def part? (t : Tree) (r : Role) : Option Tree := (t.parts r).head?

/-- The first named child that is no comment. -/
def content? (t : Tree) : Option Tree := t.namedChildren.find? fun c => !c.isComment

/-- The trees in front that may stand anywhere, and the rest. -/
def splitAsides (ts : List Tree) : List Tree × List Tree :=
  (ts.takeWhile isAside, ts.dropWhile isAside)

/-- A node of the kind `k` around `ts`. Asides in front stay outside, before the node. -/
def wrap (k : String) (ts : List Tree) : List Tree :=
  let (outer, inner) := splitAsides ts
  outer ++ [node none k inner]

end Tree

/-- The leaf for an aside. -/
def Aside.leaf (a : Aside) : Tree := .leaf none ⟨a.kind, true, false, a.blank, a.text, a.line⟩

/-- The leaf of the kind `k` for a lexeme, after the leaves for what stands before it. -/
def Lexeme.leaves (l : Lexeme) (k : String) (named : Bool) : List Tree :=
  let missing := l.kind == .supplied
  l.asides.map Aside.leaf ++
    [.leaf none ⟨k, named, missing, l.blank, if missing then "" else l.text, l.line⟩]

end AccessorScan
