import DocumentStore.Heap.Tree
import DocumentStore.Json.Writer

/-!
Contract: values carried through JSON text.

Owns: the text of a value, and the tree that reading this text back gives.

Does not own: the store the result is placed in.
-/

set_option autoImplicit false

namespace DocumentStore.Tree

/-- The JSON text of a value. -/
def writeJson (blobs : Bool) (tree : Tree) : Except Failure String := do
  let json ← tree.toJson blobs
  return json.write

/-- The tree that is read back from the text of a value. -/
def throughText (blobs : Bool) (tree : Tree) : Except Failure Json := do
  let text ← tree.writeJson blobs
  match Json.read text with
  | .ok json => return json
  | .error cause => throw (.unreadable cause)

end DocumentStore.Tree
