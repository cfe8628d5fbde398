import DocumentStore.Table
import DocumentStore.Number.Double
import DocumentStore.Calendar.Moment
import DocumentStore.Digest.Sha1
import DocumentStore.Heap.Kind

/-!
Contract: values with identity, and the store of the containers they refer to.

Owns: values, cells, allocation, and the changes made in place to one cell.

Does not own: what a value looks like as a whole; that is its unfolding, in `Tree`.

An array, an object or a blob is a cell of the store, and a value refers to it. Two
values that refer to one cell see each other's changes. Cells are never given back,
so a reference stays good.
-/

set_option autoImplicit false

namespace DocumentStore

/-- The name of a cell. -/
abbrev Ref := Nat

/-- What tells two objects apart that are no cells and whose contents never change. -/
abbrev Identity := Nat

/-- A value. -/
inductive Value where
  | null
  | boolean (value : Bool)
  | integer (value : Int)
  | double (value : Double)
  | text (value : String)
  | bytes (content : Digest.Bytes)
  | moment (moment : Calendar.Moment)
  | cell (ref : Ref)
  deriving DecidableEq

/-- A binary attachment: its own content, or the description of a content that an engine
keeps. The descriptive parts come from stored data and may be any value. -/
structure Blob where
  contentType : Value
  content : Option Digest.Bytes
  length : Value
  digest : Value
  deriving DecidableEq

/-- What a reference refers to. -/
inductive Cell where
  | array (items : List Value)
  | object (fields : Table String Value)
  | blob (blob : Blob)
  deriving DecidableEq

/-- All cells, in the order of their allocation. -/
structure Store where
  cells : Array Cell

namespace Store

/-- The store without cells. -/
def empty : Store :=
  ⟨#[]⟩

/-- The number of cells. -/
def size (store : Store) : Nat :=
  store.cells.size

/-- The cell a reference refers to. -/
def read? (store : Store) (ref : Ref) : Option Cell :=
  store.cells[ref]?

/-- A new cell, and the reference to it. -/
def allocate (store : Store) (cell : Cell) : Ref × Store :=
  (store.cells.size, ⟨store.cells.push cell⟩)

/-- Another content for a cell; a reference to none changes nothing. -/
def write (store : Store) (ref : Ref) (cell : Cell) : Store :=
  ⟨store.cells.setIfInBounds ref cell⟩

/-- The fields of an object; other cells have none. -/
def fields (store : Store) (ref : Ref) : Table String Value :=
  match store.read? ref with
  | some (.object fields) => fields
  | _ => []

/-- A field set in place. -/
def setField (store : Store) (ref : Ref) (key : String) (value : Value) : Store :=
  store.write ref (.object (Table.put (store.fields ref) key value))

/-- A field removed in place. -/
def removeField (store : Store) (ref : Ref) (key : String) : Store :=
  store.write ref (.object (Table.remove (store.fields ref) key))

/-- An item added in place at the end of an array; other cells stay as they are. -/
def append (store : Store) (ref : Ref) (value : Value) : Store :=
  match store.read? ref with
  | some (.array items) => store.write ref (.array (items ++ [value]))
  | _ => store

/-- The blob a value refers to. -/
def blob? (store : Store) : Value → Option Blob
  | .cell ref =>
      match store.read? ref with
      | some (.blob blob) => some blob
      | _ => none
  | _ => none

/-- The fields of the object a value refers to. -/
def object? (store : Store) : Value → Option (Table String Value)
  | .cell ref =>
      match store.read? ref with
      | some (.object fields) => some fields
      | _ => none
  | _ => none

/-- The items of the array a value refers to. -/
def array? (store : Store) : Value → Option (List Value)
  | .cell ref =>
      match store.read? ref with
      | some (.array items) => some items
      | _ => none
  | _ => none

/-- The kind of a value. -/
def kind (store : Store) : Value → Kind
  | .null => .null
  | .boolean _ => .boolean
  | .integer _ => .integer
  | .double _ => .double
  | .text _ => .text
  | .bytes _ => .bytes
  | .moment _ => .moment
  | .cell ref =>
      match store.read? ref with
      | some (.array _) => .array
      | some (.object _) => .object
      | some (.blob _) => .blob
      | none => .null

end Store

end DocumentStore
