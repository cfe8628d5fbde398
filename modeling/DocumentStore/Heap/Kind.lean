/-!
Contract: the kinds of values that messages name.

Owns: the kinds and the two names each has in messages.

Does not own: which value is of which kind.
-/

set_option autoImplicit false

namespace DocumentStore

/-- The kind of a value. -/
inductive Kind where
  | null
  | boolean
  | integer
  | double
  | text
  | bytes
  | moment
  | blob
  | array
  | object
  | expression
  deriving DecidableEq

namespace Kind

/-- The short name of a kind. -/
def name : Kind → String
  | null => "NoneType"
  | boolean => "bool"
  | integer => "int"
  | double => "float"
  | text => "str"
  | bytes => "bytes"
  | moment => "datetime"
  | blob => "Blob"
  | array => "list"
  | object => "dict"
  | expression => "Expression"

/-- The name of a kind where conversions to bytes complain: moments are named with the
module they come from. -/
def fullName : Kind → String
  | moment => "datetime.datetime"
  | other => other.name

end Kind

end DocumentStore
