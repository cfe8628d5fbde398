import DocumentStore.Number.Double

/-!
Contract: decimal numerals as they stand in JSON text.

Owns: splitting a numeral off the front of a text, the value of a run of digits,
the limit on the length of integers, and rounding of a decimal to a double.

Does not own: the surrounding text.
-/

set_option autoImplicit false

namespace DocumentStore

/-- Integers of more digits are neither read nor written. -/
def digitLimit : Nat := 4300

/-- The number of decimal digits of an integer, its sign not counted. -/
def digitCount (number : Int) : Nat :=
  (Nat.toDigits 10 number.natAbs).length

/-- The decimal text of an integer. -/
def integerText (number : Int) : List Char :=
  let digits := Nat.toDigits 10 number.natAbs
  if number < 0 then '-' :: digits else digits

/-- The value of a run of decimal digits. -/
def digitsValue (digits : List Char) : Nat :=
  Nat.ofDigitChars 10 digits 0

namespace Double

/-- The double nearest to `± digits · 10 ^ exponent`. Magnitudes far outside the range of
doubles are decided by their size alone. -/
def ofDecimal (negative : Bool) (digits : Nat) (exponent : Int) : Double :=
  if digits = 0 then zero negative
  else
    let size := ((Nat.toDigits 10 digits).length : Int) + exponent
    if 400 < size then .infinite negative
    else if size < -400 then zero negative
    else if 0 ≤ exponent then ofRatio negative (digits * Nat.pow 10 exponent.toNat) 1
    else ofRatio negative digits (Nat.pow 10 (-exponent).toNat)

end Double

/-- The parts of a numeral. A numeral with a fraction or an exponent is a double, any
other an integer. -/
structure Numeral where
  negative : Bool
  whole : List Char
  fraction : List Char
  exponent : Option Int
  deriving DecidableEq

namespace Numeral

/-- A minus sign, if there is one. -/
def takeSign : List Char → Bool × List Char
  | '-' :: rest => (true, rest)
  | text => (false, text)

/-- The digits before the point: a single zero, or digits that start with another one. -/
def takeWhole : List Char → Option (List Char × List Char)
  | '0' :: rest => some (['0'], rest)
  | first :: rest =>
      if first.isDigit then some (first :: rest.takeWhile Char.isDigit, rest.dropWhile Char.isDigit)
      else none
  | [] => none

/-- The digits after a point; a point that no digit follows is not part of the numeral. -/
def takeFraction : List Char → List Char × List Char
  | '.' :: first :: rest =>
      if first.isDigit then (first :: rest.takeWhile Char.isDigit, rest.dropWhile Char.isDigit)
      else ([], '.' :: first :: rest)
  | text => ([], text)

/-- The sign of an exponent. -/
def takeExponentSign : List Char → Bool × List Char
  | '-' :: rest => (true, rest)
  | '+' :: rest => (false, rest)
  | text => (false, text)

/-- An exponent; a mark that no digit follows is not part of the numeral. -/
def takeExponent : List Char → Option Int × List Char
  | mark :: rest =>
      if mark = 'e' ∨ mark = 'E' then
        let (negative, digits) := takeExponentSign rest
        let value : Int := digitsValue (digits.takeWhile Char.isDigit)
        if (digits.takeWhile Char.isDigit).isEmpty then (none, mark :: rest)
        else (some (if negative then -value else value), digits.dropWhile Char.isDigit)
      else (none, mark :: rest)
  | [] => (none, [])

/-- The numeral at the front of a text, and what follows it. -/
def read (text : List Char) : Option (Numeral × List Char) :=
  let (negative, unsigned) := takeSign text
  match takeWhole unsigned with
  | none => none
  | some (whole, afterWhole) =>
      let (fraction, afterFraction) := takeFraction afterWhole
      let (exponent, rest) := takeExponent afterFraction
      some (⟨negative, whole, fraction, exponent⟩, rest)

/-- Whether the numeral stands for an integer. -/
def isInteger (numeral : Numeral) : Bool :=
  numeral.fraction.isEmpty && numeral.exponent.isNone

/-- The integer before the point. -/
def integer (numeral : Numeral) : Int :=
  let magnitude : Int := digitsValue numeral.whole
  if numeral.negative then -magnitude else magnitude

/-- The double nearest to the numeral. -/
def double (numeral : Numeral) : Double :=
  .ofDecimal numeral.negative (digitsValue (numeral.whole ++ numeral.fraction))
    (numeral.exponent.getD 0 - (numeral.fraction.length : Int))

end Numeral

end DocumentStore
