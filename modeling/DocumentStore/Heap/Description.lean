import DocumentStore.Heap.Tree
import DocumentStore.Number.Shortest
import DocumentStore.Calendar.Literal

/-!
Contract: descriptions of values for human readers.

Owns: the literal of a value, and the plain form in which texts and moments stand
without the marks of a literal.

Does not own: JSON text.
-/

set_option autoImplicit false

namespace DocumentStore

/-- The spelling of the doubles that have no digits. -/
def descriptionSpelling : Double.Spelling :=
  ⟨"nan", "inf"⟩

/-- A truth value in a description. -/
def truthText (value : Bool) : String :=
  if value then "True" else "False"

/-- One byte inside a literal: as the ASCII character it encodes, if that is printable. -/
def byteCharacter (mark : Char) (byte : UInt8) : List Char :=
  if byte.toNat < 0x80 then Text.quotedCharacter mark (Char.ofNat byte.toNat)
  else '\\' :: 'x' :: Text.hexDigits 2 byte.toNat

/-- The literal of a byte string. -/
def bytesLiteral (content : Digest.Bytes) : String :=
  let mark := Text.quotationMark (content.map fun byte => Char.ofNat byte.toNat)
  String.ofList ('b' :: mark :: (content.flatMap (byteCharacter mark) ++ [mark]))

/-- A list of literals between brackets. -/
def bracketed (items : List String) : String :=
  "[" ++ ", ".intercalate items ++ "]"

namespace Tree

mutual

/-- The literal of a value. -/
def literal : Tree → String
  | .null => "None"
  | .boolean value => truthText value
  | .integer value => String.ofList (integerText value)
  | .double value => String.ofList (value.text descriptionSpelling)
  | .text value => Text.quoted value
  | .bytes content => bytesLiteral content
  | .moment instant => instant.literal
  | .blob _ contentType _ length digest =>
      "Blob(content_type=" ++ literal contentType ++ ", length="
        ++ (match length with
          | .text value => value
          | .moment instant => instant.plain
          | _ => literal length)
        ++ ", digest=" ++ literal digest ++ ")"
  | .array items => bracketed (itemLiterals items)
  | .object fields => "\x7b" ++ ", ".intercalate (fieldLiterals fields) ++ "\x7d"
  | .cycle kind _ => if kind = .object then "\x7b...\x7d" else "[...]"

def itemLiterals : List Tree → List String
  | [] => []
  | item :: rest => literal item :: itemLiterals rest

/-- The literals of keys and values, each pair with a colon. -/
def fieldLiterals : List (String × Tree) → List String
  | [] => []
  | (key, value) :: rest => (Text.quoted key ++ ": " ++ literal value) :: fieldLiterals rest

end

/-- The plain form of a value: a text is itself, a moment is written out, all else is its
literal. -/
def plain : Tree → String
  | .text value => value
  | .moment instant => instant.plain
  | other => other.literal

end Tree

end DocumentStore
