import DocumentStore.Number.Double

/-!
Contract: the shortest decimal text of a double.

Owns: the search for the fewest decimal digits that round to a given double, the
nearest of those, and their layout as text.

Does not own: the reading of such text.

The reals that round to a finite double form an interval around it, whose ends
belong to it exactly when the significand is even. On the grid of multiples of a
power of ten the only candidates are the two neighbours of the double, so the
search looks at these two on ever finer grids and takes the first that lies in
the interval. Seventeen digits always suffice.
-/

set_option autoImplicit false

namespace DocumentStore.Double

/-- Decimal digits times a power of ten. -/
structure Decimal where
  digits : Nat
  exponent : Int
  deriving DecidableEq

namespace Finite

/-- The interval of reals that round to a double, in quarters of its last place:
lower end, the double itself and upper end. Below a power of two the gap is half as wide. -/
def interval (value : Finite) : Nat × Nat × Nat :=
  let centre := 4 * value.significand
  let lower :=
    if value.significand = Nat.pow 2 52 ∧ -1074 < value.exponent then centre - 1 else centre - 2
  (lower, centre, centre + 2)

/-- Quarters of the last place as a quotient of one unit. -/
def quarterUnit (value : Finite) : Nat × Nat :=
  let exponent := value.exponent - 2
  if 0 ≤ exponent then (Nat.pow 2 exponent.toNat, 1) else (1, Nat.pow 2 (-exponent).toNat)

/-- The power of ten at or just below a positive quotient. -/
def decimalExponent (numerator denominator : Nat) : Int :=
  if denominator ≤ numerator then
    ((Nat.toDigits 10 (numerator / denominator)).length : Int) - 1
  else
    let width := (Nat.toDigits 10 (denominator / numerator)).length
    if denominator ≤ numerator * Nat.pow 10 (width - 1) then 1 - (width : Int) else -(width : Int)

/-- The neighbours of a double on the grid of multiples of `10 ^ exponent` that round
back to it: the nearer one if any, the even one of two equally near. -/
def nearestOnGrid (value : Finite) (exponent : Int) : Option Nat :=
  let (lower, centre, upper) := value.interval
  let (unit, scale) := value.quarterUnit
  let (unit, scale) :=
    if 0 ≤ exponent then (unit, scale * Nat.pow 10 exponent.toNat)
    else (unit * Nat.pow 10 (-exponent).toNat, scale)
  let below := centre * unit / scale
  let inside (point : Nat) : Bool :=
    let position := point * scale
    if value.significand % 2 = 0 then
      decide (lower * unit ≤ position) && decide (position ≤ upper * unit)
    else
      decide (lower * unit < position) && decide (position < upper * unit)
  let distanceBelow := centre * unit - below * scale
  let distanceAbove := (below + 1) * scale - centre * unit
  if inside below then
    if inside (below + 1) then
      if distanceBelow < distanceAbove then some below
      else if distanceAbove < distanceBelow then some (below + 1)
      else some (below + below % 2)
    else some below
  else if inside (below + 1) then some (below + 1)
  else none

/-- The fewest digits that round to a double that is not zero. -/
def shortest (value : Finite) : Decimal :=
  let top := decimalExponent value.ratio.1 value.ratio.2
  let found := (List.range 17).findSome? fun (further : Nat) =>
    (value.nearestOnGrid (top - further)).map fun digits => (⟨digits, top - further⟩ : Decimal)
  found.getD ⟨0, 0⟩

end Finite

/-- Zeros at the end of a run of digits add nothing. -/
def trimZeros (digits : List Char) : List Char :=
  (digits.reverse.dropWhile (· == '0')).reverse

/-- An exponent has a sign and at least two digits. -/
def exponentText (exponent : Int) : List Char :=
  let digits := Nat.toDigits 10 exponent.natAbs
  let sign := if exponent < 0 then '-' else '+'
  sign :: (if digits.length < 2 then '0' :: digits else digits)

/-- Digits whose first one stands for `10 ^ place`. Places from -4 up to 15 are written
positionally, with at least one digit on each side of the point; all others carry an exponent. -/
def layout (digits : List Char) (place : Int) : List Char :=
  if -4 ≤ place ∧ place < 16 then
    if place < 0 then
      '0' :: '.' :: (List.replicate ((-place).toNat - 1) '0' ++ digits)
    else
      let whole := place.toNat + 1
      let padded := digits ++ List.replicate (whole - digits.length) '0'
      let fraction := padded.drop whole
      padded.take whole ++ '.' :: (if fraction.isEmpty then ['0'] else fraction)
  else
    match digits with
    | [] => []
    | [single] => single :: 'e' :: exponentText place
    | first :: rest => first :: '.' :: (rest ++ 'e' :: exponentText place)

/-- The shortest text of a finite double. -/
def Finite.text (value : Finite) : List Char :=
  let magnitude :=
    if value.significand = 0 then ['0', '.', '0']
    else
      let decimal := value.shortest
      let digits := Nat.toDigits 10 decimal.digits
      layout (trimZeros digits) (decimal.exponent + (digits.length : Int) - 1)
  if value.negative then '-' :: magnitude else magnitude

/-- How a format spells the values that have no digits. -/
structure Spelling where
  nan : String
  infinity : String

/-- The text of a double in a format with the given spelling. -/
def text (spelling : Spelling) : Double → List Char
  | .nan => spelling.nan.toList
  | .infinite negative =>
      if negative then '-' :: spelling.infinity.toList else spelling.infinity.toList
  | .finite value => value.text

end DocumentStore.Double
