import DocumentStore.Blob

/-!
Contract: typed reading of one property.

Owns: the coercion of a value to each type a property can be read as.

Does not own: finding the property. A missing one is read as null.

A value of another type gives the default of the type asked for. Three readings can
fail: an integer past the greatest double has no double, a timestamp may leave the
calendar on the way to UTC, and the content of a blob may claim more bytes than can
be held.
-/

set_option autoImplicit false

namespace DocumentStore

namespace Value

/-- The text of a value. -/
def asText : Value → Option String
  | .text value => some value
  | _ => none

/-- The truth of a value: null is false, a boolean is itself, a number is true unless it is
zero, a text unless it is empty or `0.0`; everything else is true. -/
def asTruth : Value → Bool
  | .null => false
  | .boolean value => value
  | .integer value => value != 0
  | .double value => !value.isZero
  | .text value => value != "" && value != "0.0"
  | _ => true

/-- The integer of a value, the fraction of a finite double dropped. -/
def asInteger : Value → Int
  | .boolean value => value.toInt
  | .integer value => value
  | .double (.finite value) => value.truncated
  | _ => 0

/-- The number of a value, as it is. -/
def asNumber : Value → Number
  | .boolean value => .integer value.toInt
  | .integer value => .integer value
  | .double value => .double value
  | _ => .integer 0

/-- The double of a value. -/
def asDouble : Value → Except Failure Double
  | .boolean value => .ok (if value then .ofRatio false 1 1 else .zero false)
  | .integer value =>
      match Double.ofInt? value with
      | some number => .ok number
      | none => .error .integerTooLarge
  | .double value => .ok value
  | _ => .ok (.zero false)

/-- The moment that the text of a value names. -/
def asMoment : Value → Except Failure (Option Calendar.Moment)
  | .text value =>
      match Calendar.Timestamp.read value with
      | .noTimestamp => .ok none
      | .outOfRange => .error .outsideCalendar
      | .moment inUtc => .ok (some inUtc)
  | _ => .ok none

end Value

/-- A number as a value. -/
def Number.value : Number → Value
  | .integer value => .integer value
  | .double value => .double value

namespace Store

/-- The fields of a tagged blob inside an object: the tag says so, and its data is an object. -/
def taggedBlob? (store : Store) (fields : Table String Value) : Option (Table String Value) :=
  match Table.value? fields "_type", Table.value? fields "data" with
  | some (.text "blob"), some data => store.object? data
  | _, _ => none

variable [Machine]

/-- The blob that the fields of an object describe. A content type makes them the description
of a stored content, whatever else they hold. Tagged fields give a blob with content, or
none where they are faulty. -/
def blobOfFields (store : Store) (fields : Table String Value) : Except Failure (Option Blob) :=
  match Table.value? fields "content_type" with
  | some contentType =>
      .ok (some (Blob.ofMetadata contentType ((Table.value? fields "length").getD (.integer 0))
        ((Table.value? fields "digest").getD .null)))
  | none =>
      match store.taggedBlob? fields with
      | none => .ok none
      | some data =>
          match store.blobOfDictionary data with
          | .ok blob => .ok (some blob)
          | .error (.bytes fault) => if fault.isAboutSize then .error (.bytes fault) else .ok none
          | .error _ => .ok none

/-- The blob of a value: the one it refers to, or the one that an object describes. -/
def asBlob (store : Store) (value : Value) : Except Failure (Option Blob) :=
  match store.blob? value, store.object? value with
  | some blob, _ => .ok (some blob)
  | none, some fields => store.blobOfFields fields
  | none, none => .ok none

/-- A reference to the blob of a value: the same blob where the value refers to one, a new
one where an object describes it, null where there is none. -/
def referToBlob (store : Store) (value : Value) : Except Failure (Value × Store) :=
  match store.blob? value with
  | some _ => .ok (value, store)
  | none => do
      match ← store.asBlob value with
      | none => return (.null, store)
      | some blob =>
          let (ref, after) := store.allocate (.blob blob)
          return (.cell ref, after)

/-- The value, if it refers to an array. -/
def asArray (store : Store) (value : Value) : Value :=
  if (store.array? value).isSome then value else .null

/-- The value, if it refers to an object. -/
def asObject (store : Store) (value : Value) : Value :=
  if (store.object? value).isSome then value else .null

end Store

end DocumentStore
