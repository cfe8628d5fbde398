/-!
Contract: finite tables that remember the order in which their keys arrived.

Owns: look-up, an insertion that keeps a key's first position, removal, the keys in
the order of their arrival, and the entries in the order of the keys.

Does not own: what a table is used for.
-/

set_option autoImplicit false

namespace DocumentStore

/-- Entries in order of arrival; the operations below keep the keys distinct. -/
abbrev Table (κ α : Type) := List (κ × α)

namespace Table

variable {κ α : Type}

/-- The keys, oldest first. -/
def keys (table : Table κ α) : List κ :=
  table.map Prod.fst

/-- The entries in the order of their keys, by code point. -/
def inKeyOrder (table : Table String α) : Table String α :=
  table.mergeSort fun left right => decide (left.1 ≤ right.1)

/-- Each key stands in the table once. -/
def Distinct (table : Table κ α) : Prop :=
  (keys table).Nodup

variable [DecidableEq κ]

/-- The value under a key. -/
def value? (table : Table κ α) (key : κ) : Option α :=
  match table with
  | [] => none
  | (present, value) :: rest => if present = key then some value else value? rest key

/-- Whether a key stands in the table. -/
def contains (table : Table κ α) (key : κ) : Bool :=
  (value? table key).isSome

/-- A present key keeps its position and takes the new value; a new key goes to the end. -/
def put (table : Table κ α) (key : κ) (value : α) : Table κ α :=
  match table with
  | [] => [(key, value)]
  | (present, old) :: rest =>
      if present = key then (present, value) :: rest
      else (present, old) :: put rest key value

/-- The table without a key; an absent key changes nothing. -/
def remove (table : Table κ α) (key : κ) : Table κ α :=
  match table with
  | [] => []
  | (present, value) :: rest =>
      if present = key then rest else (present, value) :: remove rest key

/-- The table of a listing in which a key may repeat: its first position and its last value
count. -/
def ofEntries (entries : List (κ × α)) : Table κ α :=
  entries.foldl (fun table entry => put table entry.1 entry.2) []

end Table

end DocumentStore
