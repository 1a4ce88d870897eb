/-!
# `AccessorScan.Toml.Value` — TOML values and tables under construction

A document defines its tables piece by piece: by headers, by keys with points, and by headers of
tables further down. What may still be added to a table depends on how it came to be.

## Contents
- `Toml`: values. A float is known only by whether it is too large, and a date or time by being one.
- `Toml.isReadable`: every number in a value can be represented.
- `Table` and `TableEntry`: tables under construction, with `Table.within`, `Table.define`,
  `Table.openTable`, `Table.openItem`.
- `Table.toToml`.
-/

namespace AccessorScan

inductive Toml where
  | string (value : String)
  | integer (value : Int)
  | float (isFinite : Bool)
  | boolean (value : Bool)
  | moment
  | array (items : List Toml)
  | table (entries : List (String × Toml))

namespace Toml

/-- Integers are read in 128 bits, with a sign or without. -/
def fitsInteger : Int → Bool
  | .ofNat n => n < Nat.pow 2 128
  | .negSucc n => n < Nat.pow 2 127

mutual

/-- Every number in the value can be represented. -/
def isReadable : Toml → Bool
  | integer n => fitsInteger n
  | float isFinite => isFinite
  | array items => areReadable items
  | table entries => entriesReadable entries
  | string _ => true
  | boolean _ => true
  | moment => true

def areReadable : List Toml → Bool
  | [] => true
  | v :: rest => v.isReadable && areReadable rest

def entriesReadable : List (String × Toml) → Bool
  | [] => true
  | (_, v) :: rest => v.isReadable && entriesReadable rest

end

end Toml

/-! ## Tables under construction -/

mutual

structure Table where
  /-- It came to be because something in it was defined. -/
  implied : Bool
  /-- It came to be by a key with points. -/
  dotted : Bool
  entries : List (String × TableEntry)

inductive TableEntry where
  | value (v : Toml)
  | table (t : Table)
  /-- The items of an array of tables, the last one first. -/
  | items (last : Table) (earlier : List Table)

end

namespace Table

def empty : Table := ⟨false, false, []⟩

def find? (t : Table) (key : String) : Option TableEntry :=
  (t.entries.find? fun e => e.1 == key).map (·.2)

/-- The entry under `key` replaced, or put behind the others. -/
def put (t : Table) (key : String) (e : TableEntry) : Table :=
  if (t.find? key).isSome then
    { t with entries := t.entries.map fun old => if old.1 == key then (key, e) else old }
  else { t with entries := t.entries ++ [(key, e)] }

/-- Changes the table that a header's path leads to. In an array of tables the path goes through the
last item. -/
def within (f : Table → Option Table) : List String → Table → Option Table
  | [], t => f t
  | key :: path, t =>
      match t.find? key with
      | none => (within f path ⟨true, false, []⟩).map fun u => t.put key (.table u)
      | some (.table u) => (within f path u).map fun u => t.put key (.table u)
      | some (.items last earlier) =>
          (within f path last).map fun u => t.put key (.items u earlier)
      | some (.value _) => none

/-- Defines the value of a key with points. A table on the way must have come to be by such keys,
and none of the keys may be taken. -/
def define (v : Toml) (last : String) (pointed : Bool) : List String → Table → Option Table
  | [], t =>
      if (t.find? last).isSome || t.dotted != pointed then none
      else some (t.put last (.value v))
  | key :: path, t =>
      match t.find? key with
      | none => (define v last pointed path ⟨true, true, []⟩).map fun u => t.put key (.table u)
      | some (.table u) =>
          if u.implied then (define v last pointed path u).map fun u => t.put key (.table u)
          else none
      | some (.items _ _) => none
      | some (.value _) => none

/-- Defines the value of a key, given as its last part and the parts before it. -/
def defineKey (path : List String) (last : String) (v : Toml) (t : Table) : Option Table :=
  define v last (!path.isEmpty) path t

/-- A header: the table may have been implied by another header, but not defined before. -/
def openTable (path : List String) (last : String) (t : Table) : Option Table :=
  within (fun parent =>
    match parent.find? last with
    | none => some (parent.put last (.table empty))
    | some (.table u) =>
        if u.implied && !u.dotted then some (parent.put last (.table { u with implied := false }))
        else none
    | some (.items _ _) => none
    | some (.value _) => none) path t

/-- A header of an array of tables: one more item. -/
def openItem (path : List String) (last : String) (t : Table) : Option Table :=
  within (fun parent =>
    match parent.find? last with
    | none => some (parent.put last (.items empty []))
    | some (.items u earlier) => some (parent.put last (.items empty (u :: earlier)))
    | some (.table _) => none
    | some (.value _) => none) path t

end Table

mutual

def Table.toToml : Table → Toml
  | ⟨_, _, entries⟩ => .table (Table.entriesToToml entries)

def Table.entriesToToml : List (String × TableEntry) → List (String × Toml)
  | [] => []
  | (key, e) :: rest => (key, e.toToml) :: Table.entriesToToml rest

def TableEntry.toToml : TableEntry → Toml
  | .value v => v
  | .table t => t.toToml
  | .items last earlier => .array ((Table.listToToml earlier).reverse ++ [last.toToml])

def Table.listToToml : List Table → List Toml
  | [] => []
  | t :: rest => t.toToml :: Table.listToToml rest

end

end AccessorScan
