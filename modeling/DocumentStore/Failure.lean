import DocumentStore.Heap.Kind
import DocumentStore.Json.Reader
import DocumentStore.Text.Quoted

/-!
Contract: every way in which an operation can fail.

Owns: the causes, the wording of each, and the domain and code of those that an
engine reports.

Does not own: when a cause arises.
-/

set_option autoImplicit false

namespace DocumentStore

/-- Why a value is not a byte string. -/
inductive ByteFault where
  | unencodedText
  | notBytes (kind : Kind)
  | notInteger (kind : Kind)
  | outOfRange
  | negativeCount
  | countTooLarge
  | contentTooLarge
  | outOfMemory
  deriving DecidableEq

namespace ByteFault

/-- The wording of a fault. -/
def message : ByteFault → String
  | unencodedText => "string argument without an encoding"
  | notBytes kind => "cannot convert '" ++ kind.fullName ++ "' object to bytes"
  | notInteger kind => "'" ++ kind.fullName ++ "' object cannot be interpreted as an integer"
  | outOfRange => "bytes must be in range(0, 256)"
  | negativeCount => "negative count"
  | countTooLarge => "cannot fit 'int' into an index-sized integer"
  | contentTooLarge => "byte string is too large"
  | outOfMemory => ""

/-- Whether a fault is about a size past some limit, not about what a value is. -/
def isAboutSize : ByteFault → Bool
  | countTooLarge => true
  | contentTooLarge => true
  | outOfMemory => true
  | _ => false

end ByteFault

/-- Why a text is not a blob. -/
inductive BlobTextFault where
  | unreadable (cause : Json.ReadError)
  | notObject
  | noContentType
  | noBytes
  | bytes (cause : ByteFault)
  deriving DecidableEq

namespace BlobTextFault

/-- The wording of a fault. -/
def message : BlobTextFault → String
  | unreadable cause => cause.message
  | notObject => "Expected a JSON object"
  | noContentType => "Invalid or missing contentType property"
  | noBytes => "Invalid or missing bytes property"
  | bytes cause => cause.message

end BlobTextFault

/-- What an engine, or a document without one, reports. -/
inductive DatabaseFault where
  | notFound (identifier : String)
  | conflict (identifier : String)
  | blobNotFound (key identifier : String)
  | notOpen (identifier : String)
  | reported (message domain : String) (code : Int)
  deriving DecidableEq

namespace DatabaseFault

/-- The domain of the faults that the library itself reports. -/
def ownDomain : String :=
  "doclite"

/-- The wording of a report. -/
def message : DatabaseFault → String
  | notFound identifier => "Document " ++ identifier ++ " not found"
  | conflict identifier => "Document " ++ identifier ++ " was modified concurrently"
  | blobNotFound key identifier =>
      "No blob stored under " ++ Text.quoted key ++ " in document " ++ identifier
  | notOpen identifier => "Document " ++ identifier ++ " is not associated with a collection"
  | reported message _ _ => message

/-- The domain a report belongs to. -/
def domain : DatabaseFault → String
  | reported _ domain _ => domain
  | _ => ownDomain

/-- The number that classifies a report. -/
def code : DatabaseFault → Int
  | notFound _ => 7
  | conflict _ => 8
  | blobNotFound _ _ => 7
  | notOpen _ => 11
  | reported _ _ code => code

/-- A report with all its parts. -/
def description (fault : DatabaseFault) : String :=
  "DatabaseError(message=" ++ Text.quoted fault.message ++ ", domain="
    ++ Text.quoted fault.domain ++ ", code=" ++ String.ofList (integerText fault.code) ++ ")"

end DatabaseFault

/-- Why an operation failed. -/
inductive Failure where
  /-- A text that should hold a document is no JSON text. -/
  | malformedDocument (cause : Json.ReadError)
  /-- A text that should hold a document holds another value than an object. -/
  | documentNotObject
  /-- A text that should hold a blob does not. -/
  | malformedBlob (cause : BlobTextFault)
  /-- A text written for copying is refused. -/
  | unreadable (cause : Json.ReadError)
  /-- A container is reached again while it is being written. -/
  | circularReference
  /-- A value that has no JSON text. -/
  | notSerializable (kind : Kind)
  /-- An integer of too many digits to be written. -/
  | integerTooLong
  /-- A value that is no byte string. -/
  | bytes (cause : ByteFault)
  /-- A key that has to be there is missing. -/
  | missingKey (key : String)
  /-- A moment that leaves the years 1 to 9999 in UTC. -/
  | outsideCalendar
  /-- An integer past the greatest double. -/
  | integerTooLarge
  /-- A container where the key of a table is needed. -/
  | unhashable (kind : Kind)
  /-- Something that is no expression where one is rendered. -/
  | unsupportedOperand (kind : Kind)
  /-- A test without an operand. -/
  | missingOperand
  /-- Bounds that are not an aggregate of two. -/
  | betweenBounds
  /-- A report of an engine. -/
  | database (fault : DatabaseFault)
  deriving DecidableEq

namespace Failure

/-- The wording of a failure. -/
def message : Failure → String
  | malformedDocument cause => "Failed to parse JSON string: " ++ cause.message
  | documentNotObject => "Failed to parse JSON string: expected a JSON object"
  | malformedBlob cause => "Failed to parse Blob JSON: " ++ cause.message
  | unreadable cause => cause.message
  | circularReference => "Circular reference detected"
  | notSerializable kind => "Object of type " ++ kind.name ++ " is not JSON serializable"
  | integerTooLong =>
      "Exceeds the limit (" ++ toString digitLimit
        ++ " digits) for integer string conversion; "
        ++ "use sys.set_int_max_str_digits() to increase the limit"
  | bytes cause => cause.message
  | missingKey key => Text.quoted key
  | outsideCalendar => "date value out of range"
  | integerTooLarge => "int too large to convert to float"
  | unhashable kind => "unhashable type: '" ++ kind.name ++ "'"
  | unsupportedOperand kind => "Unsupported expression node: " ++ kind.name
  | missingOperand => "operand is null."
  | betweenBounds => "BETWEEN requires an aggregate of exactly two expressions."
  | database fault => fault.message

end Failure

end DocumentStore
