import DocumentStore.Proofs.Number.Equality
import Mathlib.Data.Rat.Floor

/-!
Contract: integers and doubles that stand for one quantity.

Owns: the integer that a rational is truncated to, the truncation of a finite double, and the
double of an integer of at most 53 bits.

Does not own: the double of a longer integer, which is near to it only.

A double is its own rounding, so all that an integer needs is a double of its magnitude. Its bits
are shifted up to a significand of 53 bits, and the exponent takes the shift back.
-/

set_option autoImplicit false

namespace DocumentStore

/-! ### Truncation -/

/-- The integer reached from a rational towards zero. -/
def truncation (value : ℚ) : Int :=
  if 0 ≤ value then ⌊value⌋ else ⌈value⌉

theorem truncation_of_nonneg {value : ℚ} (nonneg : 0 ≤ value) : truncation value = ⌊value⌋ :=
  if_pos nonneg

theorem truncation_neg (value : ℚ) : truncation (-value) = -truncation value := by
  unfold truncation
  rcases lt_trichotomy value 0 with negative | rfl | positive
  · rw [if_pos (neg_nonneg.2 negative.le), if_neg (not_le.2 negative), Int.floor_neg]
  · simp
  · rw [if_neg (not_le.2 (neg_neg_of_pos positive)), if_pos positive.le, Int.ceil_neg]

theorem truncation_intCast (integer : Int) : truncation integer = integer := by
  unfold truncation
  split
  · exact Int.floor_intCast integer
  · exact Int.ceil_intCast integer

theorem truncation_mono {left right : ℚ} (le : left ≤ right) : truncation left ≤ truncation right := by
  unfold truncation
  by_cases leftNonneg : 0 ≤ left
  · rw [if_pos leftNonneg, if_pos (leftNonneg.trans le)]
    exact Int.floor_mono le
  · rw [if_neg leftNonneg]
    split
    · next rightNonneg =>
        calc ⌈left⌉ ≤ 0 := Int.ceil_le.2 (by exact_mod_cast (not_le.1 leftNonneg).le)
          _ ≤ ⌊right⌋ := Int.floor_nonneg.2 rightNonneg
    · exact Int.ceil_mono le

namespace Double

/-- Dropping the fraction of a double truncates its exact value. -/
theorem Finite.truncated_eq (value : Finite) : value.truncated = truncation value.rational := by
  have whole : ((value.ratio.1 / value.ratio.2 : Nat) : Int) = truncation value.magnitude := by
    rw [truncation_of_nonneg value.magnitude_nonneg, ← ratio_eq_magnitude,
      Rat.floor_natCast_div_natCast]
    exact Int.natCast_ediv _ _
  unfold truncated rational
  rw [whole]
  cases value.negative with
  | false => rfl
  | true => exact (truncation_neg _).symm

/-! ### Integers of at most 53 bits -/

/-- A double that is not zero lies in its own interval. -/
theorem Finite.covers_magnitude {value : Finite} (nonzero : value.significand ≠ 0) :
    value.Covers value.magnitude := by
  have quarter : value.magnitude = ((4 * value.significand : Nat) : ℚ) * 2 ^ (value.exponent - 2) := by
    rw [magnitude, zpow_sub₀ two_ne_zero]
    push_cast
    ring
  have below : value.interval.1 < 4 * value.significand := by
    unfold interval
    dsimp only
    split <;> omega
  have above : 4 * value.significand < value.interval.2.2 :=
    Nat.lt_add_of_pos_right Nat.two_pos
  rw [quarter]
  apply Covers.of_lt <;> gcongr

/-- A quotient that is the magnitude of a double rounds to this double. -/
theorem ofRatio_of_magnitude {value : Finite} {numerator denominator : Nat}
    (positive : 0 < denominator) (nonzero : value.significand ≠ 0)
    (same : (numerator : ℚ) / denominator = value.magnitude) :
    ofRatio value.negative numerator denominator = .finite value :=
  ofRatio_of_covers positive nonzero (same ▸ Finite.covers_magnitude nonzero)

/-- A positive integer of at most 53 bits, or the next power of two, is the magnitude of a double. -/
theorem exists_finite {natural : Nat} (positive : 0 < natural) (small : natural ≤ 2 ^ 53)
    (negative : Bool) :
    ∃ value : Finite, value.negative = negative ∧ value.significand ≠ 0 ∧ value.magnitude = natural := by
  rcases Nat.lt_or_eq_of_le small with short | rfl
  · have reached := Nat.log2_self_le (Nat.pos_iff_ne_zero.1 positive)
    have bounded : natural < 2 ^ (Nat.log2 natural + 1) := Nat.lt_log2_self
    have few : Nat.log2 natural ≤ 52 :=
      Nat.lt_succ_iff.1 ((Nat.log2_lt (Nat.pos_iff_ne_zero.1 positive)).2 short)
    obtain ⟨shift, total⟩ := Nat.exists_eq_add_of_le few
    generalize Nat.log2 natural = bits at reached bounded total
    have low : 2 ^ 52 ≤ natural * 2 ^ shift := by
      rw [total, Nat.pow_add]
      exact Nat.mul_le_mul_right _ reached
    have high : natural * 2 ^ shift < 2 ^ 53 := by
      rw [show 53 = bits + 1 + shift by omega, Nat.pow_add]
      exact Nat.mul_lt_mul_of_pos_right bounded (Nat.pow_pos Nat.two_pos)
    refine ⟨⟨negative, natural * 2 ^ shift, -shift, high, by omega, by omega, .inl low⟩, rfl, ?_, ?_⟩
    · exact (Nat.mul_pos positive (Nat.pow_pos Nat.two_pos)).ne'
    · simp [Finite.magnitude]
  · refine ⟨⟨negative, 2 ^ 52, 1, by decide⟩, rfl, Nat.pos_iff_ne_zero.1 (Nat.pow_pos Nat.two_pos), ?_⟩
    norm_num [Finite.magnitude]

/-- An integer of at most 53 bits, or the next power of two, has a double of its own value. -/
theorem exists_ofInt? {integer : Int} (small : integer.natAbs ≤ 2 ^ 53) :
    ∃ double, ofInt? integer = some double ∧ double.quantity? = some (.exact integer) := by
  rcases Nat.eq_zero_or_pos integer.natAbs with zero | positive
  · obtain rfl := Int.natAbs_eq_zero.1 zero
    refine ⟨.zero false, rfl, ?_⟩
    rw [Double.zero, quantity?, Finite.rational_eq_zero_iff.2 rfl, Int.cast_zero]
  · obtain ⟨value, sign, nonzero, magnitude⟩ := exists_finite positive small (decide (integer < 0))
    have same : ((integer.natAbs : Nat) : ℚ) / (1 : Nat) = value.magnitude := by
      rw [magnitude, Nat.cast_one, div_one]
    have rounded := ofRatio_of_magnitude Nat.one_pos nonzero same
    refine ⟨.finite value, ?_, ?_⟩
    · rw [ofInt?, ← sign, rounded]
    · rw [quantity?, Finite.rational_eq_intCast_iff.2 ⟨magnitude, .inr sign⟩]

theorem ofRatio_of_ofInt? {integer : Int} {double : Double} (rounded : ofInt? integer = some double) :
    ofRatio (decide (integer < 0)) integer.natAbs 1 = double := by
  unfold ofInt? at rounded
  split at rounded
  · next value finite =>
      rw [finite]
      exact Option.some.inj rounded
  · cases rounded

end Double

end DocumentStore
