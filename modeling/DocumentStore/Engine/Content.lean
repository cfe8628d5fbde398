import DocumentStore.Heap.Tree
import DocumentStore.Digest.Encoding

/-!
Contract: the content store of an engine.

Owns: taking blobs out of a property bag, and what a bag holds in their place.

Does not own: the bag's other data, which stays as it is.

A blob in a bag is an object with the tag and with an object for data. Its content
goes into the store under its digest, and its description takes its place. The walk
is depth first; a fault ends it, and the contents stored before that stay.
-/

set_option autoImplicit false

namespace DocumentStore

/-- Contents by digest. -/
abbrev ContentStore := Table String Digest.Bytes

namespace ContentStore

/-- The data of a tagged blob, if some fields are one. -/
def tagged? (fields : List (String × Json)) : Option (List (String × Json)) :=
  match Table.value? fields "_type", Table.value? fields "data" with
  | some (.text "blob"), some (.object data) => some data
  | _, _ => none

variable [Machine]

/-- The content that the data of a tagged blob describes. -/
def content (data : List (String × Json)) : Except ByteFault Digest.Bytes :=
  Tree.payload ((Table.value? data "data").map Json.toTree)

/-- What stands in the place of a blob whose content has a digest. -/
def metadata (data : List (String × Json)) (bytes : Digest.Bytes) (digest : String) : Json :=
  .object [("@type", .text "blob"),
    ("content_type", (Table.value? data "contentType").getD .null),
    ("digest", .text digest), ("length", .integer bytes.length)]

mutual

/-- A tree with its blobs replaced, and the store with their contents. -/
def detach (contents : ContentStore) : Json → Except ByteFault Json × ContentStore
  | .array items =>
      match detachItems contents items with
      | (.ok detached, after) => (.ok (.array detached), after)
      | (.error fault, after) => (.error fault, after)
  | .object fields =>
      match tagged? fields with
      | some data =>
          match content data with
          | .ok bytes =>
              let digest := Digest.contentDigest bytes
              (.ok (metadata data bytes digest), Table.put contents digest bytes)
          | .error fault => (.error fault, contents)
      | none =>
          match detachFields contents fields with
          | (.ok detached, after) => (.ok (.object detached), after)
          | (.error fault, after) => (.error fault, after)
  | scalar => (.ok scalar, contents)

def detachItems (contents : ContentStore) : List Json → Except ByteFault (List Json) × ContentStore
  | [] => (.ok [], contents)
  | item :: rest =>
      match detach contents item with
      | (.error fault, after) => (.error fault, after)
      | (.ok detached, after) =>
          match detachItems after rest with
          | (.ok others, final) => (.ok (detached :: others), final)
          | (.error fault, final) => (.error fault, final)

def detachFields (contents : ContentStore) :
    List (String × Json) → Except ByteFault (List (String × Json)) × ContentStore
  | [] => (.ok [], contents)
  | (key, value) :: rest =>
      match detach contents value with
      | (.error fault, after) => (.error fault, after)
      | (.ok detached, after) =>
          match detachFields after rest with
          | (.ok others, final) => (.ok ((key, detached) :: others), final)
          | (.error fault, final) => (.error fault, final)

end

end ContentStore

end DocumentStore
