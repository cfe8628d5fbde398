import DocumentStore.Digest.Sha1

/-!
Contract: byte strings as text.

Owns: lower-case hexadecimal with its reading, and Base64 with padding.

Does not own: the bytes themselves.
-/

set_option autoImplicit false

namespace DocumentStore.Digest

/-- Two hexadecimal digits for each byte. -/
def hexadecimal (bytes : Bytes) : List Char :=
  bytes.flatMap fun byte =>
    [Nat.digitChar (byte.toNat / 16), Nat.digitChar (byte.toNat % 16)]

/-- The value of a hexadecimal digit of either case. -/
def hexValue? (digit : Char) : Option Nat :=
  if digit.isDigit then some (digit.toNat - '0'.toNat)
  else if 'a' ≤ digit ∧ digit ≤ 'f' then some (digit.toNat - 'a'.toNat + 10)
  else if 'A' ≤ digit ∧ digit ≤ 'F' then some (digit.toNat - 'A'.toNat + 10)
  else none

/-- The bytes of a hexadecimal text, if it is one. -/
def ofHexadecimal? : List Char → Option Bytes
  | [] => some []
  | [_] => none
  | high :: low :: rest => do
      let highValue ← hexValue? high
      let lowValue ← hexValue? low
      let bytes ← ofHexadecimal? rest
      some (UInt8.ofNat (highValue * 16 + lowValue) :: bytes)

/-- The digit of a six-bit group. -/
def base64Digit (group : Nat) : Char :=
  if group < 26 then Char.ofNat ('A'.toNat + group)
  else if group < 52 then Char.ofNat ('a'.toNat + (group - 26))
  else if group < 62 then Char.ofNat ('0'.toNat + (group - 52))
  else if group = 62 then '+' else '/'

/-- Four digits for each three bytes; a last group of one or two bytes is padded. -/
def base64 : Bytes → List Char
  | [] => []
  | [first] =>
      let bits := first.toNat * 16
      [base64Digit (bits / 64), base64Digit (bits % 64), '=', '=']
  | [first, second] =>
      let bits := (first.toNat * 256 + second.toNat) * 4
      [base64Digit (bits / 4096), base64Digit (bits / 64 % 64), base64Digit (bits % 64), '=']
  | first :: second :: third :: rest =>
      let bits := (first.toNat * 256 + second.toNat) * 256 + third.toNat
      base64Digit (bits / 262144) :: base64Digit (bits / 4096 % 64)
        :: base64Digit (bits / 64 % 64) :: base64Digit (bits % 64) :: base64 rest

/-- The digest under which a content is kept: the algorithm's name and Base64. -/
def contentDigest (content : Bytes) : String :=
  "sha1-" ++ String.ofList (base64 (sha1 content))

end DocumentStore.Digest
