/-!
Contract: double-precision numbers as exact values.

Owns: the values themselves (a signed significand times a power of two, the two
infinities, not-a-number), rounding of an exact quotient to the nearest double,
truncation, and comparison with integers and with one another.

Does not own: decimal text, which is read in `Numeral` and written in `Shortest`.

Every value has one representation, so equality of representations tells the two
zeros apart and nothing else that the numeric comparison identifies.
-/

set_option autoImplicit false

namespace DocumentStore

namespace Double

/-- A significand has at most 53 bits, an exponent lies between those of the least
and of the greatest double, and a significand is short only at the least exponent. -/
def Canonical (significand : Nat) (exponent : Int) : Prop :=
  significand < Nat.pow 2 53 ∧ -1074 ≤ exponent ∧ exponent ≤ 971
    ∧ (Nat.pow 2 52 ≤ significand ∨ exponent = -1074)

instance (significand : Nat) (exponent : Int) : Decidable (Canonical significand exponent) := by
  unfold Canonical
  infer_instance

/-- The number `± significand · 2 ^ exponent`. -/
structure Finite where
  negative : Bool
  significand : Nat
  exponent : Int
  canonical : Canonical significand exponent
  deriving DecidableEq

end Double

/-- A double-precision number. -/
inductive Double where
  | nan
  | infinite (negative : Bool)
  | finite (value : Double.Finite)
  deriving DecidableEq

namespace Double

/-- The zero of a given sign. -/
def zero (negative : Bool) : Double :=
  .finite ⟨negative, 0, -1074, by decide⟩

/-- The double of a significand and an exponent in range; past the range stands infinity. -/
def ofScaled (negative : Bool) (significand : Nat) (exponent : Int) : Double :=
  if canonical : Canonical significand exponent then
    .finite ⟨negative, significand, exponent, canonical⟩
  else
    .infinite negative

/-- The integer nearest to a quotient; of two equally near the even one. -/
def roundQuotient (numerator denominator : Nat) : Nat :=
  let quotient := numerator / denominator
  let remainder := numerator % denominator
  if 2 * remainder < denominator then quotient
  else if denominator < 2 * remainder then quotient + 1
  else quotient + quotient % 2

/-- A quotient divided by a power of two, again as a quotient. -/
def unscale (numerator denominator : Nat) (exponent : Int) : Nat × Nat :=
  if 0 ≤ exponent then (numerator, denominator * Nat.pow 2 exponent.toNat)
  else (numerator * Nat.pow 2 (-exponent).toNat, denominator)

/-- The power of two at or just below a positive quotient. -/
def binaryExponent (numerator denominator : Nat) : Int :=
  let estimate : Int := (Nat.log2 numerator : Int) - (Nat.log2 denominator : Int)
  let (scaledNumerator, scaledDenominator) := unscale numerator denominator estimate
  if scaledDenominator ≤ scaledNumerator then estimate else estimate - 1

/-- The double nearest to `± numerator / denominator`; of two equally near the one
with the even significand. -/
def ofRatio (negative : Bool) (numerator denominator : Nat) : Double :=
  if numerator = 0 then zero negative
  else
    let exponent := max (binaryExponent numerator denominator - 52) (-1074)
    let (scaledNumerator, scaledDenominator) := unscale numerator denominator exponent
    let significand := roundQuotient scaledNumerator scaledDenominator
    if significand = Nat.pow 2 53 then ofScaled negative (Nat.pow 2 52) (exponent + 1)
    else ofScaled negative significand exponent

/-- The double nearest to an integer, unless that is past the greatest double. -/
def ofInt? (number : Int) : Option Double :=
  match ofRatio (decide (number < 0)) number.natAbs 1 with
  | .finite value => some (.finite value)
  | _ => none

/-- The magnitude `significand · 2 ^ exponent` as a quotient. -/
def Finite.ratio (value : Finite) : Nat × Nat :=
  if 0 ≤ value.exponent then (value.significand * Nat.pow 2 value.exponent.toNat, 1)
  else (value.significand, Nat.pow 2 (-value.exponent).toNat)

/-- The integer reached by dropping the fraction. -/
def Finite.truncated (value : Finite) : Int :=
  let magnitude : Int := (value.ratio.1 / value.ratio.2 : Nat)
  if value.negative then -magnitude else magnitude

/-- Whether a number is one of the two zeros. -/
def isZero : Double → Bool
  | .finite value => value.significand == 0
  | _ => false

/-- Numeric equality: the zeros are equal, not-a-number differs from everything. -/
def equal : Double → Double → Bool
  | .finite left, .finite right =>
      (left.significand == 0 && right.significand == 0) || left == right
  | .infinite left, .infinite right => left == right
  | _, _ => false

/-- Whether a double is exactly a given integer. -/
def equalsInt (number : Double) (integer : Int) : Bool :=
  match number with
  | .finite value =>
      value.ratio.1 == integer.natAbs * value.ratio.2
        && (value.significand == 0 || value.negative == decide (integer < 0))
  | _ => false

end Double

/-- A number of either kind. -/
inductive Number where
  | integer (value : Int)
  | double (value : Double)
  deriving DecidableEq

namespace Number

/-- Equality of the values, whatever the kinds. -/
def equal : Number → Number → Bool
  | .integer left, .integer right => left == right
  | .integer left, .double right => right.equalsInt left
  | .double left, .integer right => left.equalsInt right
  | .double left, .double right => left.equal right

/-- Whether the value is zero. -/
def isZero : Number → Bool
  | .integer value => value == 0
  | .double value => value.isZero

end Number

end DocumentStore
