import DocumentStore.Proofs.Number.Shortest

/-!
Contract: two numbers are equal exactly if they stand for the same quantity.

Owns: the exact value of a finite double, and the quantity of a number of either kind.

Does not own: numbers inside of other values.

Not-a-number stands for no quantity, and both zeros stand for the same one. Any other quantity has
one double at most, because a canonical significand leaves no choice of the exponent.
-/

set_option autoImplicit false

namespace DocumentStore

namespace Double.Finite

variable {left right value : Finite}

/-! ### Exact values -/

/-- The exact value of a finite double. -/
def rational (value : Finite) : ℚ :=
  if value.negative then -value.magnitude else value.magnitude

theorem magnitude_nonneg (value : Finite) : 0 ≤ value.magnitude := by
  unfold magnitude
  positivity

theorem magnitude_eq_zero_iff : value.magnitude = 0 ↔ value.significand = 0 := by
  have unit : (2 : ℚ) ^ value.exponent ≠ 0 := by positivity
  simp [magnitude, unit]

theorem rational_eq_zero_iff : value.rational = 0 ↔ value.significand = 0 := by
  rw [← magnitude_eq_zero_iff, rational]
  split
  · exact neg_eq_zero
  · exact Iff.rfl

/-- With the greater exponent a double is greater, because only those of the least exponent have
short significands. -/
theorem magnitude_lt_of_exponent_lt (less : left.exponent < right.exponent) :
    left.magnitude < right.magnitude := by
  obtain ⟨short, least, _, _⟩ := left.canonical
  obtain ⟨_, _, _, normal⟩ := right.canonical
  have long : 2 ^ 52 ≤ right.significand := by
    rcases normal with long | lowest
    · exact long
    · omega
  have shortRat : (left.significand : ℚ) < 2 ^ 53 := by exact_mod_cast short
  have longRat : (2 : ℚ) ^ 52 ≤ right.significand := by exact_mod_cast long
  calc left.magnitude < 2 ^ 53 * 2 ^ left.exponent := by
        unfold magnitude
        gcongr
    _ = 2 ^ 52 * 2 ^ (left.exponent + 1) := by
        rw [zpow_add_one₀ two_ne_zero]
        ring
    _ ≤ 2 ^ 52 * 2 ^ right.exponent := by
        gcongr
        · norm_num
        · omega
    _ ≤ right.magnitude := by
        unfold magnitude
        gcongr

/-- Two doubles of one sign and one magnitude are one double. -/
theorem eq_of_magnitude_eq (sign : left.negative = right.negative)
    (same : left.magnitude = right.magnitude) : left = right := by
  have exponents : left.exponent = right.exponent := by
    rcases lt_trichotomy left.exponent right.exponent with less | equal | greater
    · exact absurd same (magnitude_lt_of_exponent_lt less).ne
    · exact equal
    · exact absurd same (magnitude_lt_of_exponent_lt greater).ne'
  have significands : left.significand = right.significand := by
    have unit : (2 : ℚ) ^ right.exponent ≠ 0 := by positivity
    rw [magnitude, magnitude, exponents, mul_left_inj' unit] at same
    exact_mod_cast same
  obtain ⟨_, _, _, _⟩ := left
  obtain ⟨_, _, _, _⟩ := right
  cases sign
  cases exponents
  cases significands
  rfl

/-- Two finite doubles have one exact value exactly if both are zeros or they are one double. -/
theorem rational_eq_iff :
    left.rational = right.rational
      ↔ left.significand = 0 ∧ right.significand = 0 ∨ left = right := by
  constructor
  · intro same
    by_cases zero : left.significand = 0
    · left
      exact ⟨zero, rational_eq_zero_iff.1 (same ▸ rational_eq_zero_iff.2 zero)⟩
    · right
      have nonzero : left.magnitude ≠ 0 := mt magnitude_eq_zero_iff.1 zero
      have leftPositive := left.magnitude_nonneg.lt_of_ne' nonzero
      have rightNonneg := right.magnitude_nonneg
      cases leftSign : left.negative <;> cases rightSign : right.negative
      all_goals simp only [rational, leftSign, rightSign, if_true, Bool.false_eq_true, if_false] at same
      · exact eq_of_magnitude_eq (leftSign.trans rightSign.symm) same
      · linarith
      · linarith
      · exact eq_of_magnitude_eq (leftSign.trans rightSign.symm) (neg_injective same)
  · rintro (⟨leftZero, rightZero⟩ | rfl)
    · rw [rational_eq_zero_iff.2 leftZero, rational_eq_zero_iff.2 rightZero]
    · rfl

end Double.Finite

/-! ### Quantities -/

/-- What a number stands for. -/
inductive Quantity where
  | exact (value : ℚ)
  | infinite (negative : Bool)

/-- The quantity of a double; not-a-number has none. -/
def Double.quantity? : Double → Option Quantity
  | nan => none
  | infinite negative => some (.infinite negative)
  | finite value => some (.exact value.rational)

/-- The quantity of a number. -/
def Number.quantity? : Number → Option Quantity
  | .integer value => some (.exact value)
  | .double value => value.quantity?

namespace Double

theorem quantity?_ne_none_iff {number : Double} : number.quantity? ≠ none ↔ number ≠ .nan := by
  cases number <;> simp [quantity?]

theorem equal_iff_quantity? {left right : Double} :
    left.equal right = true ↔ left.quantity? ≠ none ∧ left.quantity? = right.quantity? := by
  cases left <;> cases right <;> simp [equal, quantity?, Finite.rational_eq_iff]

theorem Finite.ratio_eq_iff {value : Finite} {natural : Nat} :
    value.ratio.1 = natural * value.ratio.2 ↔ value.magnitude = natural := by
  have positive : (value.ratio.2 : ℚ) ≠ 0 := by exact_mod_cast value.ratio_snd_pos.ne'
  rw [← ratio_eq_magnitude, div_eq_iff positive]
  norm_cast

/-- An integer is the exact value of a double if the magnitudes agree, and the signs as well unless
it is zero. -/
theorem Finite.rational_eq_intCast_iff {value : Finite} {integer : Int} :
    value.rational = integer
      ↔ value.magnitude = integer.natAbs
        ∧ (value.significand = 0 ∨ value.negative = decide (integer < 0)) := by
  have nonneg := value.magnitude_nonneg
  have absolute : (integer.natAbs : ℚ) = |(integer : ℚ)| := by
    rw [Nat.cast_natAbs, Int.cast_abs]
  have below : integer < 0 ↔ (integer : ℚ) < 0 := Int.cast_lt_zero.symm
  rw [← magnitude_eq_zero_iff, absolute]
  cases sign : value.negative with
  | false =>
      rw [eq_comm (a := false), decide_eq_false_iff_not, below, not_lt, rational, sign]
      grind
  | true =>
      rw [eq_comm (a := true), decide_eq_true_iff, below, rational, sign]
      grind

theorem equalsInt_iff_quantity? {number : Double} {integer : Int} :
    number.equalsInt integer = true ↔ number.quantity? = some (.exact integer) := by
  cases number with
  | nan => simp [equalsInt, quantity?]
  | infinite negative => simp [equalsInt, quantity?]
  | finite value =>
      simp only [equalsInt, quantity?, Bool.and_eq_true, Bool.or_eq_true, beq_iff_eq,
        Option.some.injEq, Quantity.exact.injEq, Finite.rational_eq_intCast_iff,
        Finite.ratio_eq_iff]

end Double

/-- Numbers are equal exactly if they stand for the same quantity. -/
theorem Number.equal_iff_quantity? {left right : Number} :
    left.equal right = true ↔ left.quantity? ≠ none ∧ left.quantity? = right.quantity? := by
  cases left with
  | integer left =>
      cases right with
      | integer right => simp [equal, quantity?]
      | double right =>
          simp only [equal, quantity?, Double.equalsInt_iff_quantity?]
          constructor
          · intro same
            rw [same]
            simp
          · exact fun same => same.2.symm
  | double left =>
      cases right with
      | integer right =>
          simp only [equal, quantity?, Double.equalsInt_iff_quantity?]
          constructor
          · intro same
            rw [same]
            simp
          · exact And.right
      | double right => exact Double.equal_iff_quantity?

theorem Number.equal_iff_of_counts {left right : Number} (counts : left.quantity? ≠ none) :
    left.equal right = true ↔ left.quantity? = right.quantity? := by
  rw [equal_iff_quantity?, and_iff_right counts]

end DocumentStore
