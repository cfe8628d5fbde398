import DocumentStore.Json.Basic
import DocumentStore.Number.Shortest
import DocumentStore.Number.Numeral
import DocumentStore.Text.Quoted

/-!
Contract: JSON text from a tree.

Owns: the escapes of strings, the spelling of numbers, and the separators: a comma
and a blank between elements, a colon and a blank after a key.

Does not own: refusals. Every tree has a text; what cannot become a tree is refused
where the tree is built.

The text is plain ASCII: every other character is written as the UTF-16 code units
that encode it.
-/

set_option autoImplicit false

namespace DocumentStore.Json

/-- The spelling of the doubles that have no digits. -/
def spelling : Double.Spelling :=
  ⟨"NaN", "Infinity"⟩

/-- One UTF-16 code unit as an escape. -/
def unitEscape (unit : Nat) : List Char :=
  '\\' :: 'u' :: Text.hexDigits 4 unit

/-- One character inside a string. -/
def writeCharacter (character : Char) : List Char :=
  let code := character.toNat
  if character = '"' ∨ character = '\\' then ['\\', character]
  else if character = '\n' then ['\\', 'n']
  else if character = '\r' then ['\\', 'r']
  else if character = '\t' then ['\\', 't']
  else if code = 0x08 then ['\\', 'b']
  else if code = 0x0c then ['\\', 'f']
  else if 0x20 ≤ code ∧ code < 0x7f then [character]
  else if code < 0x10000 then unitEscape code
  else
    unitEscape (0xd800 + (code - 0x10000) / 0x400)
      ++ unitEscape (0xdc00 + (code - 0x10000) % 0x400)

/-- A string with its quotation marks. -/
def writeText (text : String) : List Char :=
  '"' :: (text.toList.flatMap writeCharacter ++ ['"'])

mutual

/-- The characters of the text of a tree. -/
def render : Json → List Char
  | .null => "null".toList
  | .boolean true => "true".toList
  | .boolean false => "false".toList
  | .integer value => integerText value
  | .double value => value.text spelling
  | .text value => writeText value
  | .array [] => ['[', ']']
  | .array (item :: rest) => '[' :: (render item ++ renderItems rest)
  | .object [] => ['\x7b', '\x7d']
  | .object ((key, value) :: rest) =>
      '\x7b' :: (writeText key ++ ':' :: ' ' :: (render value ++ renderFields rest))

/-- The items after the first, and the closing bracket. -/
def renderItems : List Json → List Char
  | [] => [']']
  | item :: rest => ',' :: ' ' :: (render item ++ renderItems rest)

/-- The fields after the first, and the closing brace. -/
def renderFields : List (String × Json) → List Char
  | [] => ['\x7d']
  | (key, value) :: rest =>
      ',' :: ' ' :: (writeText key ++ ':' :: ' ' :: (render value ++ renderFields rest))

end

/-- The text of a tree. -/
def write (json : Json) : String :=
  String.ofList (render json)

end DocumentStore.Json
