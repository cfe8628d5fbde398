import DocumentStore.Table
import DocumentStore.Number.Double

/-!
Contract: JSON documents as trees.

Owns: the tree type, the order-preserving tables of its objects, and the tree with
the keys of every object sorted.

Does not own: the text, which is read in `Reader` and written in `Writer`.

Integers and doubles are kept apart, and doubles may be infinite or not a number.
-/

set_option autoImplicit false

namespace DocumentStore

/-- A JSON value. -/
inductive Json where
  | null
  | boolean (value : Bool)
  | integer (value : Int)
  | double (value : Double)
  | text (value : String)
  | array (items : List Json)
  | object (fields : List (String × Json))

namespace Json

mutual

/-- The tree with the keys of every object in order. -/
def sorted : Json → Json
  | .array items => .array (sortedItems items)
  | .object fields => .object (Table.inKeyOrder (sortedFields fields))
  | scalar => scalar

def sortedItems : List Json → List Json
  | [] => []
  | item :: rest => sorted item :: sortedItems rest

def sortedFields : List (String × Json) → List (String × Json)
  | [] => []
  | (key, value) :: rest => (key, sorted value) :: sortedFields rest

end

end Json

end DocumentStore
