import DocumentStore.Heap.Store
import DocumentStore.Number.Numeral
import DocumentStore.Failure

/-!
Contract: values unfolded into trees, and what can be said of a value as a whole.

Owns: unfolding, equality of values, the reading of a value as a byte string, and
the JSON tree of a value.

Does not own: allocation. A tree holds no references except the identities of blobs and
the places where it would go round in a circle. How much memory there is belongs to the machine,
which is a parameter of everything that makes byte strings.

Unfolding follows references down every path and keeps the reference at the place where
a path comes back to a container it is still inside. A container that several positions share is
unfolded at each of them. A path visits a container at most once, so the number of
cells bounds its length. Unrolling lets a path come back to blobs, which never change:
every circle leads through an array or an object, and those end it.
-/

set_option autoImplicit false

namespace DocumentStore

/-- The machine that a program runs on. -/
class Machine where
  /-- The length of the longest byte string that the memory has room for. -/
  room : Nat

/-- A machine with room for every byte string whose length can be counted. -/
instance Machine.ample : Machine where
  room := Nat.pow 2 63

/-- A value as a whole. -/
inductive Tree where
  | null
  | boolean (value : Bool)
  | integer (value : Int)
  | double (value : Double)
  | text (value : String)
  | bytes (content : Digest.Bytes)
  | moment (moment : Calendar.Moment)
  | blob (identity : Ref) (contentType : Tree) (content : Option Digest.Bytes) (length : Tree)
      (digest : Tree)
  | array (items : List Tree)
  | object (fields : List (String × Tree))
  /-- The container, of this kind, that the path is already inside. -/
  | cycle (kind : Kind) (ref : Ref)

namespace Store

/-- The tree of a value below the containers of a path, which is at most a number of steps
from its end. Blobs count among these containers or do not. -/
def unfoldWithin (store : Store) (blobsCount : Bool) : Nat → List Ref → Value → Tree
  | _, _, .null => .null
  | _, _, .boolean value => .boolean value
  | _, _, .integer value => .integer value
  | _, _, .double value => .double value
  | _, _, .text value => .text value
  | _, _, .bytes content => .bytes content
  | _, _, .moment moment => .moment moment
  | 0, _, .cell ref => .cycle (store.kind (.cell ref)) ref
  | steps + 1, path, .cell ref =>
      if ref ∈ path then .cycle (store.kind (.cell ref)) ref
      else
        match store.read? ref with
        | some (.array items) =>
            .array (items.map (unfoldWithin store blobsCount steps (ref :: path)))
        | some (.object fields) =>
            .object (fields.map fun field =>
              (field.1, unfoldWithin store blobsCount steps (ref :: path) field.2))
        | some (.blob blob) =>
            let inside := if blobsCount then ref :: path else path
            .blob ref (unfoldWithin store blobsCount steps inside blob.contentType) blob.content
              (unfoldWithin store blobsCount steps inside blob.length)
              (unfoldWithin store blobsCount steps inside blob.digest)
        | none => .null

/-- The tree of a value. -/
def unfold (store : Store) (value : Value) : Tree :=
  store.unfoldWithin true store.size [] value

/-- The tree of a value in which only arrays and objects end a circle. Between two of them, and
at the ends of a path, there are at most as many blobs as there are cells. -/
def unroll (store : Store) (value : Value) : Tree :=
  store.unfoldWithin false ((store.size + 1) * (store.size + 1)) [] value

end Store

namespace Tree

/-- The kind of a value. -/
def kind : Tree → Kind
  | null => .null
  | boolean _ => .boolean
  | integer _ => .integer
  | double _ => .double
  | text _ => .text
  | bytes _ => .bytes
  | moment _ => .moment
  | blob .. => .blob
  | array _ => .array
  | object _ => .object
  | cycle kind _ => kind

/-- Whether a value counts as present: null, false, zero and whatever is empty do not. -/
def isTruthy : Tree → Bool
  | null => false
  | boolean value => value
  | integer value => value != 0
  | double value => !value.isZero
  | text value => value != ""
  | bytes content => !content.isEmpty
  | array items => !items.isEmpty
  | object fields => !fields.isEmpty
  | _ => true

/-- The number a value stands for; a boolean is one or zero. -/
def number? : Tree → Option Number
  | boolean value => some (.integer value.toInt)
  | integer value => some (.integer value)
  | double value => some (.double value)
  | _ => none

mutual

/-- Equality of values: numbers by value whatever their kinds, objects whatever the order of
their fields, moments as moments, blobs by identity. -/
def equal : Tree → Tree → Bool
  | .null, .null => true
  | .text left, .text right => left == right
  | .bytes left, .bytes right => left == right
  | .moment left, .moment right => left.equal right
  | .blob left _ _ _ _, .blob right _ _ _ _ => left == right
  | .array left, .array right => equalItems left right
  | .object left, .object right => left.length == right.length && equalFields left right
  | left, right =>
      match left.number?, right.number? with
      | some leftNumber, some rightNumber => leftNumber.equal rightNumber
      | _, _ => false

/-- Equality item by item. -/
def equalItems : List Tree → List Tree → Bool
  | [], [] => true
  | left :: leftRest, right :: rightRest => equal left right && equalItems leftRest rightRest
  | _, _ => false

/-- Whether every field has an equal one of the same key among others. -/
def equalFields : List (String × Tree) → List (String × Tree) → Bool
  | [], _ => true
  | (key, value) :: rest, others =>
      (match Table.value? others key with
        | some other => equal value other
        | none => false)
        && equalFields rest others

end

/-- The byte an item of a list stands for. -/
def byte : Tree → Except ByteFault UInt8
  | boolean value => .ok (if value then 1 else 0)
  | integer value =>
      if 0 ≤ value ∧ value < 256 then .ok (UInt8.ofNat value.toNat) else .error .outOfRange
  | other => .error (.notInteger other.kind)

/-- Sizes are counted in signed words of 64 bits. -/
def sizeLimit : Nat :=
  Nat.pow 2 63

/-- What a byte string takes besides its content. -/
def sizeOverhead : Nat :=
  33

/-- The bytes a value stands for: itself, one byte for each item of a list, or as many zero
bytes as a number says, if they can be counted and the memory has room for them. An object is
taken as the list of its keys. -/
def toBytes [Machine] : Tree → Except ByteFault Digest.Bytes
  | bytes content => .ok content
  | text _ => .error .unencodedText
  | boolean value => .ok (if value then [0] else [])
  | integer count =>
      if count < -(sizeLimit : Int) ∨ (sizeLimit : Int) ≤ count then .error .countTooLarge
      else if count < 0 then .error .negativeCount
      else if (sizeLimit : Int) ≤ count + sizeOverhead then .error .contentTooLarge
      else if (Machine.room : Int) < count then .error .outOfMemory
      else .ok (List.replicate count.toNat 0)
  | array items => items.mapM byte
  | object [] => .ok []
  | object (_ :: _) => .error (.notInteger .text)
  | other => .error (.notBytes other.kind)

/-- The content that a field describes; a missing one or one that counts as absent is the
empty content. -/
def payload [Machine] : Option Tree → Except ByteFault Digest.Bytes
  | none => .ok []
  | some value => if value.isTruthy then value.toBytes else .ok []

/-- One number for each byte. -/
def byteNumbers (content : Digest.Bytes) : List Json :=
  content.map fun byte => .integer byte.toNat

mutual

/-- The JSON tree of a value. The first value without one, depth first, is the failure. A blob
has one only where blobs are admitted: its content in full, or its description if it has a
digest and no content. -/
def toJson (blobs : Bool) : Tree → Except Failure Json
  | .null => .ok .null
  | .boolean value => .ok (.boolean value)
  | .integer value =>
      if digitLimit < digitCount value then .error .integerTooLong else .ok (.integer value)
  | .double value => .ok (.double value)
  | .text value => .ok (.text value)
  | .bytes _ => .error (.notSerializable .bytes)
  | .moment _ => .error (.notSerializable .moment)
  | .cycle _ _ => .error .circularReference
  | .array items => return .array (← itemsToJson blobs items)
  | .object fields => return .object (← fieldsToJson blobs fields)
  | .blob _ contentType content length digest =>
      if blobs then
        match content, digest with
        | none, .null => do
            let contentType ← toJson blobs contentType
            return .object [("_type", .text "blob"),
              ("data", .object [("contentType", contentType), ("data", .array [])])]
        | none, digest => do
            let contentType ← toJson blobs contentType
            let digest ← toJson blobs digest
            let length ← toJson blobs length
            return .object [("@type", .text "blob"), ("content_type", contentType),
              ("digest", digest), ("length", length)]
        | some content, _ => do
            let contentType ← toJson blobs contentType
            return .object [("_type", .text "blob"),
              ("data", .object [("contentType", contentType),
                ("data", .array (byteNumbers content))])]
      else .error (.notSerializable .blob)

def itemsToJson (blobs : Bool) : List Tree → Except Failure (List Json)
  | [] => .ok []
  | item :: rest => do
      let json ← toJson blobs item
      let jsons ← itemsToJson blobs rest
      return json :: jsons

def fieldsToJson (blobs : Bool) : List (String × Tree) → Except Failure (List (String × Json))
  | [] => .ok []
  | (key, value) :: rest => do
      let json ← toJson blobs value
      let jsons ← fieldsToJson blobs rest
      return (key, json) :: jsons

end

end Tree

mutual

/-- A JSON tree as the tree of a value. -/
def Json.toTree : Json → Tree
  | .null => .null
  | .boolean value => .boolean value
  | .integer value => .integer value
  | .double value => .double value
  | .text value => .text value
  | .array items => .array (Json.itemsToTree items)
  | .object fields => .object (Json.fieldsToTree fields)

def Json.itemsToTree : List Json → List Tree
  | [] => []
  | item :: rest => Json.toTree item :: Json.itemsToTree rest

def Json.fieldsToTree : List (String × Json) → List (String × Tree)
  | [] => []
  | (key, value) :: rest => (key, Json.toTree value) :: Json.fieldsToTree rest

end

end DocumentStore
