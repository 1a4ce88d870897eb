import AccessorScan.Count

/-!
# `AccessorScan.Json.Basic` — JSON values and how records are read from them

## Contents
- `Json`: values, with integers kept exactly and other numbers kept as written.
- Readers of single values: `string?`, `bool?`, `count?`, `array?`, `word?`.
- `Json.depth`: how deeply arrays and objects are nested.
- `Layout`: a record may be given as an object or as the list of its fields in order; `required`,
  `optional` and `defaulted` read one field of either.
- `tagged?` and `adjacent?`: the two ways in which a choice carries its tag.
-/

namespace AccessorScan

/-- A JSON value. Object entries keep the order in which they are written. -/
inductive Json where
  | null
  | bool (value : Bool)
  | integer (value : Int)
  /-- A number that is not written as a plain integer, kept as its literal. -/
  | decimal (literal : String)
  | string (value : String)
  | array (items : List Json)
  | object (entries : List (String × Json))
  deriving Inhabited

namespace Json

def string? : Json → Option String
  | .string s => some s
  | _ => none

def bool? : Json → Option Bool
  | .bool b => some b
  | _ => none

/-- A count; a number with a fraction or an exponent is refused. -/
def count? : Json → Option Nat
  | .integer (.ofNat n) => AccessorScan.count? n
  | _ => none

/-- Every item read by `read`; one refused item refuses the array. -/
def array? {α : Type} (read : Json → Option α) : Json → Option (List α)
  | .array items => items.mapM read
  | _ => none

/-- `null` is read as absence. -/
def option? {α : Type} (read : Json → Option α) : Json → Option (Option α)
  | .null => some none
  | v => (read v).map some

/-- A bare word: the string itself, or an object whose only entry has that key and no content. -/
def word? : Json → Option String
  | .string s => some s
  | .object [(s, .null)] => some s
  | _ => none

/-- The value under `key`, for an object that has one. -/
def get? (key : String) : Json → Option Json
  | .object entries => (entries.find? fun e => e.1 == key).map (·.2)
  | _ => none

/-- A count as JSON. -/
def count (n : Nat) : Json := .integer n

/-- `none` is written as `null`. -/
def option {α : Type} (write : α → Json) : Option α → Json
  | none => .null
  | some a => write a

/-! ## Nesting -/

mutual

/-- The greatest number of arrays and objects around one place, counting the empty ones. -/
def depth : Json → Nat
  | .array items => itemsDepth items + 1
  | .object entries => entriesDepth entries + 1
  | _ => 0

def itemsDepth : List Json → Nat
  | [] => 0
  | v :: rest => max v.depth (itemsDepth rest)

def entriesDepth : List (String × Json) → Nat
  | [] => 0
  | (_, v) :: rest => max v.depth (entriesDepth rest)

end

/-! ## Records -/

/-- A record before its fields are read: keyed by name, or the values in field order. -/
inductive Layout where
  | keyed (entries : List (String × Json))
  | listed (items : List Json)

/-- An object, or an array of at most `size` values. -/
def layout? (size : Nat) : Json → Option Layout
  | .object entries => some (.keyed entries)
  | .array items => if items.length ≤ size then some (.listed items) else none
  | _ => none

namespace Layout

/-- The value of the field with this position and name. -/
def find? (position : Nat) (name : String) : Layout → Option Json
  | .keyed entries => (entries.find? fun e => e.1 == name).map (·.2)
  | .listed items => items[position]?

/-- A field that has to be there. -/
def required {α : Type} (read : Json → Option α) (position : Nat) (name : String) (l : Layout) :
    Option α :=
  (l.find? position name).bind read

/-- A field that may be `null`, and may be left out of an object. -/
def optional {α : Type} (read : Json → Option α) (position : Nat) (name : String) (l : Layout) :
    Option (Option α) :=
  match l.find? position name, l with
  | some v, _ => option? read v
  | none, .keyed _ => some none
  | none, .listed _ => none

/-- A field with a default, which may be left out but not be `null`. -/
def defaulted {α : Type} (fallback : α) (read : Json → Option α) (position : Nat) (name : String)
    (l : Layout) : Option α :=
  match l.find? position name with
  | some v => read v
  | none => some fallback

end Layout

/-! ## Choices -/

/-- A choice whose tag stands among its fields: the tag, and what is left without it. -/
def tagged? (tag : String) : Json → Option (String × Json)
  | .object entries => do
      let v ← (entries.find? fun e => e.1 == tag).map (·.2)
      return (← v.string?, .object (entries.filter fun e => e.1 != tag))
  | .array (v :: rest) => do
      return (← v.string?, .array rest)
  | _ => none

/-- A choice whose content stands beside its tag. -/
def adjacent? (tag content : String) : Json → Option (String × Option Json)
  | .object entries => do
      let t ← (entries.find? fun e => e.1 == tag).map (·.2)
      return (← t.word?, (entries.find? fun e => e.1 == content).map (·.2))
  | .array [t, c] => do
      return (← t.word?, some c)
  | _ => none

end Json

end AccessorScan
