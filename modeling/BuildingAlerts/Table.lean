/-
Tables in order of insertion.

A table maps names to values and lists them in the order in which the names first came.
Writing to a name that is already there keeps its place.
-/
set_option autoImplicit false

namespace BuildingAlerts

/-- Named values in order of first insertion. -/
structure Table (α : Type) where
  entries : List (String × α)

namespace Table

variable {α : Type}

instance : Inhabited (Table α) := ⟨⟨[]⟩⟩

/-- The table without entries. -/
def empty : Table α :=
  ⟨[]⟩

/-- The entries after one name is set. -/
def setEntry (name : String) (value : α) : List (String × α) → List (String × α)
  | [] => [(name, value)]
  | (k, v) :: rest =>
    if k == name then (k, value) :: rest else (k, v) :: setEntry name value rest

/-- The value of a name. -/
def get? (t : Table α) (name : String) : Option α :=
  t.entries.lookup name

/-- Whether a name has a value. -/
def contains (t : Table α) (name : String) : Bool :=
  (t.get? name).isSome

/-- Sets the value of a name. -/
def insert (t : Table α) (name : String) (value : α) : Table α :=
  ⟨setEntry name value t.entries⟩

/-- Takes a name out. -/
def erase (t : Table α) (name : String) : Table α :=
  ⟨t.entries.filter fun (k, _) => k != name⟩

/-- Changes the value of a name that is there. -/
def adjust (t : Table α) (name : String) (f : α → α) : Table α :=
  ⟨t.entries.map fun (k, v) => if k == name then (k, f v) else (k, v)⟩

/-- The names in order. -/
def keys (t : Table α) : List String :=
  t.entries.map (·.1)

/-- The values in order. -/
def values (t : Table α) : List α :=
  t.entries.map (·.2)

/-- The number of names. -/
def size (t : Table α) : Nat :=
  t.entries.length

/-- Lays pairs over a table, one after the other. -/
def insertAll (t : Table α) (pairs : List (String × α)) : Table α :=
  pairs.foldl (fun t (k, v) => t.insert k v) t

/-- The table of a list of pairs; a later pair of a name replaces an earlier one. -/
def ofList (pairs : List (String × α)) : Table α :=
  empty.insertAll pairs

end Table

/-- A function with another value at one place. -/
def assign {κ α : Type} [DecidableEq κ] (f : κ → α) (k : κ) (a : α) : κ → α :=
  fun j => if j = k then a else f j

/-- The members of a list, each at its first place only. -/
def firsts {α : Type} [BEq α] (xs : List α) : List α :=
  xs.foldl (fun kept x => if kept.contains x then kept else kept ++ [x]) []

end BuildingAlerts
