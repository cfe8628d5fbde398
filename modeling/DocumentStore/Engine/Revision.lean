import DocumentStore.Heap.Tree
import DocumentStore.Json.Writer

/-!
Contract: revision identifiers.

Owns: the identifier of a generation with its data.

Does not own: the counting of generations.

The data counts by its text with the keys of every object in order, so the order in
which keys arrived does not matter. A value that is not JSON data yet is walked in that
order too, so its first fault is the first in that order.
-/

set_option autoImplicit false

namespace DocumentStore

/-- The bytes of the text of some data, keys in order. The text is plain ASCII, one byte for
each character. -/
def canonicalBytes (data : Json) : Digest.Bytes :=
  data.sorted.render.map fun character => UInt8.ofNat character.toNat

/-- The generation and the digest of the data. -/
def revisionIdentifier (generation : Int) (data : Json) : String :=
  let digest := Digest.hexadecimal (Digest.sha1 (canonicalBytes data))
  String.ofList (integerText generation ++ '-' :: digest)

namespace Tree

mutual

/-- The tree with the keys of every object in order. -/
def inKeyOrder : Tree → Tree
  | .array items => .array (itemsInKeyOrder items)
  | .object fields => .object (Table.inKeyOrder (fieldsInKeyOrder fields))
  | other => other

def itemsInKeyOrder : List Tree → List Tree
  | [] => []
  | item :: rest => inKeyOrder item :: itemsInKeyOrder rest

def fieldsInKeyOrder : List (String × Tree) → List (String × Tree)
  | [] => []
  | (key, value) :: rest => (key, inKeyOrder value) :: fieldsInKeyOrder rest

end

/-- The revision identifier of a value, if it is JSON data. The generation is written last, and
has no more digits than an integer may have. -/
def revisionIdentifier (generation : Int) (tree : Tree) : Except Failure String := do
  let data ← tree.inKeyOrder.toJson false
  if digitLimit < digitCount generation then .error .integerTooLong
  else .ok (DocumentStore.revisionIdentifier generation data)

end Tree

end DocumentStore
