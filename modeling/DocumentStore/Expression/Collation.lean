import DocumentStore.Heap.Draft
import DocumentStore.Heap.Description

/-!
Contract: text comparison options.

Owns: the three families of collations, their options, rendering and description.

Does not own: comparison of texts, which is an engine's work.

The options say what a comparison ignores; the rendered flags say what it heeds.
-/

set_option autoImplicit false

namespace DocumentStore

/-- The families of collations. -/
inductive CollationFamily where
  | plain
  | ascii
  | unicode
  deriving DecidableEq

/-- A collation. -/
structure Collation where
  family : CollationFamily
  isUnicode : Bool
  ignoresCase : Bool
  ignoresAccents : Bool
  locale : Option String
  deriving DecidableEq

namespace Collation

/-- Comparison of ASCII texts that heeds everything. -/
def ascii : Collation :=
  ⟨.ascii, false, false, false, none⟩

/-- Comparison of Unicode texts that heeds everything. -/
def unicode : Collation :=
  ⟨.unicode, true, false, false, none⟩

/-- The name of the class of a collation. -/
def className (collation : Collation) : String :=
  match collation.family with
  | .plain => "Collation"
  | .ascii => "ASCIICollation"
  | .unicode => "UnicodeCollation"

/-- The rendering of a collation. -/
def render (collation : Collation) : Draft :=
  .object [("UNICODE", .value (.boolean collation.isUnicode)),
    ("LOCALE", .optionalText collation.locale),
    ("CASE", .value (.boolean (!collation.ignoresCase))),
    ("DIAC", .value (.boolean (!collation.ignoresAccents)))]

/-- The description of a collation. -/
def description (collation : Collation) : String :=
  "Collation\x7bunicode=" ++ truthText collation.isUnicode ++ ", ignoreCase="
    ++ truthText collation.ignoresCase ++ ", ignoreAccents="
    ++ truthText collation.ignoresAccents ++ ", locale='" ++ collation.locale.getD "None" ++ "'\x7d"

end Collation

end DocumentStore
