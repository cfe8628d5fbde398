import DocumentStore.Text.Printable

/-!
Contract: quoted literals, as they stand in descriptions and in messages.

Owns: the choice of the quotation mark and the escapes inside it.

Does not own: the escapes of JSON text.

Single quotes are used unless the text holds one and no double quote. The mark in
use and the backslash are escaped; so are tab, line feed and carriage return, and
every unprintable character, by its code point in the fewest of two, four or eight
hexadecimal digits.
-/

set_option autoImplicit false

namespace DocumentStore.Text

/-- The last digits of a number in base sixteen, a fixed number of them. -/
def hexDigits : Nat → Nat → List Char
  | 0, _ => []
  | width + 1, number => hexDigits width (number / 16) ++ [Nat.digitChar (number % 16)]

/-- The escape of an unprintable code point. -/
def codePointEscape (code : Nat) : List Char :=
  if code < 0x100 then '\\' :: 'x' :: hexDigits 2 code
  else if code < 0x10000 then '\\' :: 'u' :: hexDigits 4 code
  else '\\' :: 'U' :: hexDigits 8 code

/-- The quotation mark for a text. -/
def quotationMark (text : List Char) : Char :=
  if text.contains '\'' && !text.contains '"' then '"' else '\''

/-- One character inside a literal. -/
def quotedCharacter (mark character : Char) : List Char :=
  if character = mark ∨ character = '\\' then ['\\', character]
  else if character = '\t' then ['\\', 't']
  else if character = '\n' then ['\\', 'n']
  else if character = '\r' then ['\\', 'r']
  else if isPrintable character then [character]
  else codePointEscape character.toNat

/-- The literal of a text. -/
def quoted (text : String) : String :=
  let mark := quotationMark text.toList
  String.ofList (mark :: (text.toList.flatMap (quotedCharacter mark) ++ [mark]))

end DocumentStore.Text
