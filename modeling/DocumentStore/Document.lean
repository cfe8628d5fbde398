import DocumentStore.Property
import DocumentStore.Json.Copy

/-!
Contract: documents.

Owns: a document's identity and version, the setters of its property bag, its JSON
text, and its description.

Does not own: the bag itself, which is an object in the store, nor the collection
the document is linked to, of which it knows only the number.

Several documents may hold one bag; what one of them sets, all of them read.
-/

set_option autoImplicit false

namespace DocumentStore

/-- A document. -/
structure Document where
  /-- Whether the document has setters. -/
  editable : Bool
  identifier : String
  sequence : Int
  revision : Option String
  /-- The object that holds the properties. -/
  bag : Ref
  /-- The number of the collection the document came from or was saved in. -/
  collection : Option Nat
  deriving DecidableEq

namespace Document

/-- The name of the class of a document. -/
def className (document : Document) : String :=
  if document.editable then "MutableDocument" else "Document"

section Reading

variable (store : Store) (document : Document)

/-- The properties, in the order of their keys' arrival. -/
def properties : Table String Value :=
  store.fields document.bag

/-- The keys, in the order of their arrival. -/
def keys : List String :=
  Table.keys (document.properties store)

/-- The number of properties. -/
def count : Nat :=
  (document.properties store).length

/-- Whether a property is present. -/
def contains (key : String) : Bool :=
  Table.contains (document.properties store) key

/-- The value of a property; null for a missing one. -/
def property (key : String) : Value :=
  (Table.value? (document.properties store) key).getD .null

/-- The JSON text of the bag. -/
def writeJson : Except Failure String :=
  (store.unfold (.cell document.bag)).writeJson true

/-- The class, the identity and the keys of a document. -/
def description : String :=
  document.className ++ "(id=" ++ Text.quoted document.identifier ++ ", sequence="
    ++ String.ofList (integerText document.sequence) ++ ", keys="
    ++ bracketed ((document.keys store).map Text.quoted) ++ ")"

end Reading

/-- The bag that a JSON text describes. -/
def readBag (text : String) : Except Failure Json :=
  match Json.read text with
  | .error cause => .error (.malformedDocument cause)
  | .ok (.object fields) => .ok (.object fields)
  | .ok _ => .error .documentNotObject

section Writing

variable (store : Store) (document : Document)

/-- A property set to a value as it is given. -/
def set (key : String) (value : Value) : Store :=
  store.setField document.bag key value

/-- A property set to the written form of a blob. -/
def setBlob (key : String) (blob : Blob) : Store :=
  let (value, after) := store.place blob.property
  document.set after key value

/-- A property set to a value; a blob is written. -/
def setValue (key : String) (value : Value) : Store :=
  match store.blob? value with
  | some blob => document.setBlob store key blob
  | none => document.set store key value

/-- A property set to the timestamp of a moment, or to null. -/
def setMoment (key : String) (moment : Option Calendar.Moment) : Except Failure Store :=
  match moment with
  | none => .ok (document.set store key .null)
  | some moment =>
      match Calendar.Timestamp.write? moment with
      | some text => .ok (document.set store key (.text text))
      | none => .error .outsideCalendar

/-- A property removed; the key is taken literally. -/
def remove (key : String) : Store :=
  store.removeField document.bag key

/-- The blobs among some properties of an object, written in place. -/
def writeBlobs (store : Store) (bag : Ref) : Table String Value → Store
  | [] => store
  | (key, value) :: rest =>
      match store.blob? value with
      | some blob =>
          let (written, after) := store.place blob.property
          writeBlobs (after.setField bag key written) bag rest
      | none => writeBlobs store bag rest

/-- Another object as the bag; the blobs directly in it are written in place. -/
def setBag (bag : Ref) : Document × Store :=
  ({ document with bag }, writeBlobs store bag (store.fields bag))

end Writing

end Document

end DocumentStore
