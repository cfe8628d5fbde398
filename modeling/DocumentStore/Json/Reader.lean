import DocumentStore.Json.Basic
import DocumentStore.Number.Numeral
import DocumentStore.Digest.Encoding

/-!
Contract: a tree from JSON text.

Owns: the grammar, every complaint with the place it is made at, and the merging of
repeated keys (first position, last value).

Does not own: what the tree is used for.

Beyond the common grammar the words `NaN`, `Infinity` and `-Infinity` are numbers.
Blanks are space, tab, line feed and carriage return. A text here is a text of
characters, and half of a surrogate pair is none: an escape of such a half that stands
alone is read as the replacement character, so two keys that differ only in such halves
are read as one key that is repeated. A reader carries the text that
is still to be read, and a complaint carries the text from its place on, so the
place is the difference of two lengths.
-/

set_option autoImplicit false

namespace DocumentStore.Json

/-- What is wrong with a text. -/
inductive Complaint where
  | expectingValue
  | expectingPropertyName
  | expectingColon
  | expectingComma
  | extraData
  | unterminatedString
  | invalidControlCharacter
  | invalidEscape
  | invalidUnicodeEscape
  | byteOrderMark
  deriving DecidableEq

namespace Complaint

/-- The wording of a complaint. -/
def message : Complaint → String
  | expectingValue => "Expecting value"
  | expectingPropertyName => "Expecting property name enclosed in double quotes"
  | expectingColon => "Expecting ':' delimiter"
  | expectingComma => "Expecting ',' delimiter"
  | extraData => "Extra data"
  | unterminatedString => "Unterminated string starting at"
  | invalidControlCharacter => "Invalid control character at"
  | invalidEscape => "Invalid \\escape"
  | invalidUnicodeEscape => "Invalid \\uXXXX escape"
  | byteOrderMark => "Unexpected UTF-8 BOM (decode using utf-8-sig)"

end Complaint

/-- Why reading stopped: a complaint and the text from its place on, or an integer of too
many digits. -/
inductive Stop where
  | complaint (reason : Complaint) (rest : List Char)
  | integerTooLong (digits : Nat)

/-- Blanks between the parts of a text. -/
def isBlank (character : Char) : Bool :=
  character == ' ' || character == '\t' || character == '\n' || character == '\r'

/-- The text without the blanks in front. -/
def skipBlanks (input : List Char) : List Char :=
  input.dropWhile isBlank

/-- The value of four hexadecimal digits. -/
def hexUnit? (first second third fourth : Char) : Option Nat := do
  let a ← Digest.hexValue? first
  let b ← Digest.hexValue? second
  let c ← Digest.hexValue? third
  let d ← Digest.hexValue? fourth
  some (((a * 16 + b) * 16 + c) * 16 + d)

/-- The code of the character that an escape of one letter stands for. -/
def escaped? (letter : Char) : Option Nat :=
  if letter = '"' ∨ letter = '\\' ∨ letter = '/' then some letter.toNat
  else if letter = 'b' then some 0x08
  else if letter = 'f' then some 0x0c
  else if letter = 'n' then some 0x0a
  else if letter = 'r' then some 0x0d
  else if letter = 't' then some 0x09
  else none

/-- The code units of a string up to its closing mark: a code point for each character and
each escape. Four digits must follow `\u`, and at least one more character after them. -/
def readUnits (opening : List Char) : List Char → Except Stop (List Nat × List Char)
  | [] => .error (.complaint .unterminatedString opening)
  | '"' :: rest => .ok ([], rest)
  | ['\\'] => .error (.complaint .unterminatedString opening)
  | '\\' :: 'u' :: first :: second :: third :: fourth :: rest =>
      match hexUnit? first second third fourth, rest with
      | some unit, _ :: _ =>
          (readUnits opening rest).map fun (units, after) => (unit :: units, after)
      | _, _ =>
          .error (.complaint .invalidUnicodeEscape
            ('u' :: first :: second :: third :: fourth :: rest))
  | '\\' :: 'u' :: rest => .error (.complaint .invalidUnicodeEscape ('u' :: rest))
  | '\\' :: letter :: rest =>
      match escaped? letter with
      | some code => (readUnits opening rest).map fun (units, after) => (code :: units, after)
      | none => .error (.complaint .invalidEscape ('\\' :: letter :: rest))
  | character :: rest =>
      if character.toNat < 0x20 then
        .error (.complaint .invalidControlCharacter (character :: rest))
      else
        (readUnits opening rest).map fun (units, after) => (character.toNat :: units, after)

/-- The characters of a run of code units: a high surrogate and a low one that follows it
are one character. A surrogate that stands alone has no character and becomes the
replacement character. -/
def joinSurrogates : List Nat → List Char
  | [] => []
  | [unit] => [if unit.isValidChar then Char.ofNat unit else '\ufffd']
  | high :: low :: rest =>
      if 0xd800 ≤ high ∧ high < 0xdc00 ∧ 0xdc00 ≤ low ∧ low < 0xe000 then
        Char.ofNat (0x10000 + (high - 0xd800) * 0x400 + (low - 0xdc00)) :: joinSurrogates rest
      else
        (if high.isValidChar then Char.ofNat high else '\ufffd') :: joinSurrogates (low :: rest)

/-- A string, from its opening mark on; `rest` is what follows that mark. -/
def readText (rest : List Char) : Except Stop (String × List Char) :=
  (readUnits ('"' :: rest) rest).map fun (units, after) =>
    (String.ofList (joinSurrogates units), after)

/-- A number that starts a text. -/
def readNumber (input : List Char) : Except Stop (Json × List Char) :=
  match Numeral.read input with
  | none => .error (.complaint .expectingValue input)
  | some (numeral, rest) =>
      if numeral.isInteger then
        if digitLimit < numeral.whole.length then .error (.integerTooLong numeral.whole.length)
        else .ok (.integer numeral.integer, rest)
      else .ok (.double numeral.double, rest)

/-- A key with its colon and the blanks around that. -/
def readKey (input : List Char) : Except Stop (String × List Char) :=
  match input with
  | '"' :: rest => do
      let (key, after) ← readText rest
      match skipBlanks after with
      | ':' :: value => .ok (key, skipBlanks value)
      | other => .error (.complaint .expectingColon other)
  | other => .error (.complaint .expectingPropertyName other)

mutual

/-- The value at the front of a text. The budget bounds the number of steps. -/
def readValue : Nat → List Char → Except Stop (Json × List Char)
  | 0, input => .error (.complaint .expectingValue input)
  | budget + 1, input =>
      match input with
      | '"' :: rest => (readText rest).map fun (value, after) => (.text value, after)
      | '\x7b' :: rest =>
          match skipBlanks rest with
          | '\x7d' :: after => .ok (.object [], after)
          | inner =>
              (readFields budget inner).map fun (fields, after) =>
                (.object (Table.ofEntries fields), after)
      | '[' :: rest =>
          match skipBlanks rest with
          | ']' :: after => .ok (.array [], after)
          | inner => (readItems budget inner).map fun (items, after) => (.array items, after)
      | 'n' :: 'u' :: 'l' :: 'l' :: rest => .ok (.null, rest)
      | 't' :: 'r' :: 'u' :: 'e' :: rest => .ok (.boolean true, rest)
      | 'f' :: 'a' :: 'l' :: 's' :: 'e' :: rest => .ok (.boolean false, rest)
      | 'N' :: 'a' :: 'N' :: rest => .ok (.double .nan, rest)
      | 'I' :: 'n' :: 'f' :: 'i' :: 'n' :: 'i' :: 't' :: 'y' :: rest =>
          .ok (.double (.infinite false), rest)
      | '-' :: 'I' :: 'n' :: 'f' :: 'i' :: 'n' :: 'i' :: 't' :: 'y' :: rest =>
          .ok (.double (.infinite true), rest)
      | _ => readNumber input

/-- One or more values up to the closing bracket. -/
def readItems : Nat → List Char → Except Stop (List Json × List Char)
  | 0, input => .error (.complaint .expectingValue input)
  | budget + 1, input => do
      let (item, after) ← readValue budget input
      match skipBlanks after with
      | ']' :: rest => .ok ([item], rest)
      | ',' :: rest =>
          (readItems budget (skipBlanks rest)).map fun (items, after) => (item :: items, after)
      | other => .error (.complaint .expectingComma other)

/-- One or more fields up to the closing brace. -/
def readFields : Nat → List Char → Except Stop (List (String × Json) × List Char)
  | 0, input => .error (.complaint .expectingPropertyName input)
  | budget + 1, input => do
      let (key, inner) ← readKey input
      let (value, after) ← readValue budget inner
      match skipBlanks after with
      | '\x7d' :: rest => .ok ([(key, value)], rest)
      | ',' :: rest =>
          (readFields budget (skipBlanks rest)).map fun (fields, after) =>
            ((key, value) :: fields, after)
      | other => .error (.complaint .expectingComma other)

end

/-- Two steps for each character are enough: every opening bracket costs two, every
comma one. -/
def stepBudget (input : List Char) : Nat :=
  2 * input.length + 2

/-- The value that is the whole of a text, blanks around it apart. -/
def readWhole (input : List Char) : Except Stop Json :=
  match input with
  | '\ufeff' :: _ => .error (.complaint .byteOrderMark input)
  | _ => do
      let (value, after) ← readValue (stepBudget input) (skipBlanks input)
      match skipBlanks after with
      | [] => .ok value
      | rest => .error (.complaint .extraData rest)

/-- A place in a text: line and column from one, offset from zero. -/
structure Place where
  line : Nat
  column : Nat
  offset : Nat
  deriving DecidableEq

/-- The place at which what remains of a text starts. -/
def placeOf (whole rest : List Char) : Place :=
  let offset := whole.length - rest.length
  let before := whole.take offset
  ⟨1 + before.count '\n', 1 + (before.reverse.takeWhile (· != '\n')).length, offset⟩

/-- Why a text was refused. -/
inductive ReadError where
  | complaint (reason : Complaint) (place : Place)
  | integerTooLong (digits : Nat)
  deriving DecidableEq

namespace ReadError

/-- The wording of a refusal. -/
def message : ReadError → String
  | complaint reason place =>
      reason.message ++ ": line " ++ toString place.line ++ " column " ++ toString place.column
        ++ " (char " ++ toString place.offset ++ ")"
  | integerTooLong digits =>
      "Exceeds the limit (" ++ toString digitLimit
        ++ " digits) for integer string conversion: value has " ++ toString digits
        ++ " digits; use sys.set_int_max_str_digits() to increase the limit"

end ReadError

/-- The tree of a text. -/
def read (input : String) : Except ReadError Json :=
  match readWhole input.toList with
  | .ok value => .ok value
  | .error (.complaint reason rest) => .error (.complaint reason (placeOf input.toList rest))
  | .error (.integerTooLong digits) => .error (.integerTooLong digits)

end DocumentStore.Json
