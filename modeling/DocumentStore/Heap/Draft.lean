import DocumentStore.Heap.Tree

/-!
Contract: containers that are still to be allocated.

Owns: drafts, their placement in a store as new cells, and the three sources of
drafts: JSON trees, copies of values, and whatever else builds one.

Does not own: the cells that a draft's values already refer to; placement shares
them.

Placement allocates one cell for each container of a draft, so no two positions of
what it returns share a container unless the draft's own values do.
-/

set_option autoImplicit false

namespace DocumentStore

/-- Containers to be allocated, with values in their leaves. -/
inductive Draft where
  | value (value : Value)
  | array (items : List Draft)
  | object (fields : List (String × Draft))
  | blob (contentType : Draft) (content : Option Digest.Bytes) (length digest : Draft)

namespace Draft

/-- A text as a draft. -/
def text (text : String) : Draft :=
  .value (.text text)

/-- An optional text, null where there is none. -/
def optionalText : Option String → Draft
  | some text => .value (.text text)
  | none => .value .null

/-- A byte string as a list of numbers. -/
def byteNumbers (content : Digest.Bytes) : Draft :=
  .array (content.map fun byte => .value (.integer byte.toNat))

end Draft

namespace Store

mutual

/-- The value of a draft, whose containers are new cells. -/
def place (store : Store) : Draft → Value × Store
  | .value value => (value, store)
  | .array items =>
      let (values, after) := placeItems store items
      let (ref, final) := after.allocate (.array values)
      (.cell ref, final)
  | .object fields =>
      let (values, after) := placeFields store fields
      let (ref, final) := after.allocate (.object (Table.ofEntries values))
      (.cell ref, final)
  | .blob contentType content length digest =>
      let (contentType, second) := place store contentType
      let (length, third) := place second length
      let (digest, after) := place third digest
      let (ref, final) := after.allocate (.blob ⟨contentType, content, length, digest⟩)
      (.cell ref, final)

def placeItems (store : Store) : List Draft → List Value × Store
  | [] => ([], store)
  | item :: rest =>
      let (value, after) := place store item
      let (values, final) := placeItems after rest
      (value :: values, final)

def placeFields (store : Store) : List (String × Draft) → List (String × Value) × Store
  | [] => ([], store)
  | (key, field) :: rest =>
      let (value, after) := place store field
      let (values, final) := placeFields after rest
      ((key, value) :: values, final)

end

end Store

mutual

/-- The draft of a JSON tree. -/
def Json.draft : Json → Draft
  | .null => .value .null
  | .boolean value => .value (.boolean value)
  | .integer value => .value (.integer value)
  | .double value => .value (.double value)
  | .text value => .value (.text value)
  | .array items => .array (Json.itemDrafts items)
  | .object fields => .object (Json.fieldDrafts fields)

def Json.itemDrafts : List Json → List Draft
  | [] => []
  | item :: rest => Json.draft item :: Json.itemDrafts rest

def Json.fieldDrafts : List (String × Json) → List (String × Draft)
  | [] => []
  | (key, value) :: rest => (key, Json.draft value) :: Json.fieldDrafts rest

end

mutual

/-- The draft of a copy: new containers with the same leaves; a blob stays the same blob. A value
that stands inside itself has no such copy. -/
def Tree.copy? : Tree → Option Draft
  | .null => some (.value .null)
  | .boolean value => some (.value (.boolean value))
  | .integer value => some (.value (.integer value))
  | .double value => some (.value (.double value))
  | .text value => some (.value (.text value))
  | .bytes content => some (.value (.bytes content))
  | .moment instant => some (.value (.moment instant))
  | .blob identity _ _ _ _ => some (.value (.cell identity))
  | .array items => (Tree.copyItems? items).map .array
  | .object fields => (Tree.copyFields? fields).map .object
  | .cycle _ _ => none

def Tree.copyItems? : List Tree → Option (List Draft)
  | [] => some []
  | item :: rest => do
      let copy ← Tree.copy? item
      let copies ← Tree.copyItems? rest
      return copy :: copies

def Tree.copyFields? : List (String × Tree) → Option (List (String × Draft))
  | [] => some []
  | (key, value) :: rest => do
      let copy ← Tree.copy? value
      let copies ← Tree.copyFields? rest
      return (key, copy) :: copies

end

end DocumentStore
