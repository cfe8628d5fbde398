import DocumentStore.Heap.Draft
import DocumentStore.Heap.Description

/-!
Contract: blobs, and the forms in which a property bag holds them.

Owns: the ways to make a blob, its two written forms, and the JSON form it can be
read from.

Does not own: the content store of an engine.

A blob with content, or with neither content nor digest, is written in the tagged
form, content included. A blob that only describes stored content is written as
that description, so that the content is found again by its digest.
-/

set_option autoImplicit false

namespace DocumentStore

namespace Blob

/-- A blob of one's own, with content or without. -/
def ofContent (contentType : Value) (content : Option Digest.Bytes) : Blob :=
  ⟨contentType, content, .integer ((content.getD []).length : Int), .null⟩

/-- A blob of one's own that is still to be allocated. -/
def draftOfContent (contentType : Draft) (content : Option Digest.Bytes) : Draft :=
  .blob contentType content (.value (.integer ((content.getD []).length : Int))) (.value .null)

/-- The description of a stored content. -/
def ofMetadata (contentType length digest : Value) : Blob :=
  ⟨contentType, none, length, digest⟩

/-- A blob that is still to be allocated. -/
def draft (blob : Blob) : Draft :=
  .blob (.value blob.contentType) blob.content (.value blob.length) (.value blob.digest)

/-- Content type and bytes as an object. -/
def dictionary (blob : Blob) : Draft :=
  .object [("contentType", .value blob.contentType),
    ("data", .byteNumbers (blob.content.getD []))]

/-- The form in which a property bag holds a blob. -/
def property (blob : Blob) : Draft :=
  if blob.content = none ∧ blob.digest ≠ .null then
    .object [("@type", .text "blob"), ("content_type", .value blob.contentType),
      ("digest", .value blob.digest), ("length", .value blob.length)]
  else
    .object [("_type", .text "blob"), ("data", blob.dictionary)]

/-- The blob of a JSON text: an object with a content type that is a text and not empty, and
with a list of numbers for bytes. -/
def read (text : String) : Except BlobTextFault Blob :=
  match Json.read text with
  | .error cause => .error (.unreadable cause)
  | .ok (.object fields) =>
      match Table.value? fields "contentType" with
      | some (.text contentType) =>
          if contentType = "" then .error .noContentType
          else
            match Table.value? fields "bytes" with
            | some (.array items) =>
                match (Json.itemsToTree items).mapM Tree.byte with
                | .ok content => .ok (ofContent (.text contentType) (some content))
                | .error cause => .error (.bytes cause)
            | _ => .error .noBytes
      | _ => .error .noContentType
  | .ok _ => .error .notObject

end Blob

namespace Store

/-- The blob that the fields of a dictionary form describe. -/
def blobOfDictionary [Machine] (store : Store) (fields : Table String Value) :
    Except Failure Blob :=
  match Table.value? fields "contentType" with
  | none => .error (.missingKey "contentType")
  | some contentType =>
      match Tree.payload ((Table.value? fields "data").map store.unfold) with
      | .ok content => .ok (Blob.ofContent contentType (some content))
      | .error cause => .error (.bytes cause)

/-- The description of a blob. -/
def describeBlob (store : Store) (blob : Blob) : String :=
  "Blob(content_type=" ++ (store.unroll blob.contentType).literal ++ ", length="
    ++ (store.unroll blob.length).plain ++ ", digest=" ++ (store.unroll blob.digest).literal
    ++ ")"

end Store

end DocumentStore
