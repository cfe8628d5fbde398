import DocumentStore.Number.Shortest
import Mathlib.Algebra.Order.Field.Power
import Mathlib.Algebra.Order.Field.Rat
import Mathlib.Data.Rat.Cast.Order
import Mathlib.Tactic.FieldSimp
import Mathlib.Tactic.Linarith
import Mathlib.Tactic.NormNum
import Mathlib.Tactic.Positivity
import Mathlib.Tactic.Ring

/-!
Contract: rounding a quotient gives the double in whose interval the quotient lies.

Owns: the value of `roundQuotient`, `unscale` and `binaryExponent` over the rationals, the
interval of a finite double, and `ofRatio` on that interval.

Does not own: decimal digits.

A quotient in the interval of a double has the exponent of that double, or lies just below a
power of two and has the exponent before it. In the second case rounding carries, and the
carry restores the exponent.
-/

set_option autoImplicit false

namespace DocumentStore.Double

/-! ### Rounding to an integer -/

/-- The integer within a half of a quotient is the rounded quotient, and so is the even one of
two that are a half away. -/
theorem roundQuotient_eq {numerator denominator nearest : Nat} (positive : 0 < denominator)
    (low : (nearest : ℚ) - 1 / 2 ≤ numerator / denominator)
    (high : (numerator : ℚ) / denominator ≤ nearest + 1 / 2)
    (tie : nearest % 2 = 1 →
      (nearest : ℚ) - 1 / 2 < numerator / denominator
        ∧ (numerator : ℚ) / denominator < nearest + 1 / 2) :
    roundQuotient numerator denominator = nearest := by
  have positiveRat : (0 : ℚ) < denominator := by exact_mod_cast positive
  have division := Nat.div_add_mod numerator denominator
  have remainderLt := Nat.mod_lt numerator positive
  rw [le_div_iff₀ positiveRat] at low
  rw [div_le_iff₀ positiveRat] at high
  rw [lt_div_iff₀ positiveRat, div_lt_iff₀ positiveRat] at tie
  have lowNat : 2 * nearest * denominator ≤ 2 * numerator + denominator := by
    have scaled : (2 * nearest * denominator : ℚ) ≤ 2 * numerator + denominator := by linarith
    exact_mod_cast scaled
  have highNat : 2 * numerator ≤ 2 * nearest * denominator + denominator := by
    have scaled : (2 * numerator : ℚ) ≤ 2 * nearest * denominator + denominator := by linarith
    exact_mod_cast scaled
  have tieNat : nearest % 2 = 1 →
      2 * nearest * denominator < 2 * numerator + denominator
        ∧ 2 * numerator < 2 * nearest * denominator + denominator := by
    intro odd
    obtain ⟨strictLow, strictHigh⟩ := tie odd
    have scaledLow : (2 * nearest * denominator : ℚ) < 2 * numerator + denominator := by linarith
    have scaledHigh : (2 * numerator : ℚ) < 2 * nearest * denominator + denominator := by linarith
    exact ⟨by exact_mod_cast scaledLow, by exact_mod_cast scaledHigh⟩
  unfold roundQuotient
  generalize numerator / denominator = quotient at division ⊢
  generalize numerator % denominator = remainder at division remainderLt ⊢
  subst division
  have atMost : nearest ≤ quotient + 1 := by
    refine Nat.le_of_lt_succ (Nat.lt_of_mul_lt_mul_right (a := denominator) ?_)
    nlinarith
  have atLeast : quotient ≤ nearest := by
    refine Nat.le_of_lt_succ (Nat.lt_of_mul_lt_mul_right (a := denominator) ?_)
    nlinarith
  rcases Nat.lt_or_ge quotient nearest with above | below
  · obtain rfl : nearest = quotient + 1 := by omega
    have half : denominator ≤ 2 * remainder := by nlinarith
    have odd : denominator = 2 * remainder → quotient % 2 = 1 := by
      intro exact
      by_contra even
      obtain ⟨strict, _⟩ := tieNat (by omega)
      nlinarith
    dsimp only
    split_ifs <;> omega
  · obtain rfl : nearest = quotient := by omega
    have half : 2 * remainder ≤ denominator := by nlinarith
    have even : denominator = 2 * remainder → nearest % 2 = 0 := by
      intro exact
      by_contra odd
      obtain ⟨_, strict⟩ := tieNat (by omega)
      nlinarith
    dsimp only
    split_ifs <;> omega

/-! ### Powers of two -/

theorem unscale_ratio (numerator denominator : Nat) (exponent : Int) :
    ((unscale numerator denominator exponent).1 : ℚ) / (unscale numerator denominator exponent).2 =
      numerator / denominator / 2 ^ exponent := by
  unfold unscale
  split
  · next nonnegative =>
      have cast : (exponent.toNat : Int) = exponent := Int.toNat_of_nonneg nonnegative
      simp only [Nat.pow_eq, Nat.cast_mul, Nat.cast_pow, Nat.cast_ofNat]
      rw [← zpow_natCast, cast, div_div]
  · next negative =>
      have cast : ((-exponent).toNat : Int) = -exponent := Int.toNat_of_nonneg (by omega)
      simp only [Nat.pow_eq, Nat.cast_mul, Nat.cast_pow, Nat.cast_ofNat]
      rw [← zpow_natCast, cast, zpow_neg, div_div]
      field_simp

theorem unscale_snd_pos {denominator : Nat} (positive : 0 < denominator) (numerator : Nat)
    (exponent : Int) : 0 < (unscale numerator denominator exponent).2 := by
  unfold unscale
  split
  · exact Nat.mul_pos positive (Nat.pow_pos Nat.two_pos)
  · exact positive

/-- The binary exponent of a quotient is that of the power of two at or just below it. -/
theorem binaryExponent_spec {numerator denominator : Nat} (positive : 0 < numerator)
    (denominatorPositive : 0 < denominator) :
    (2 : ℚ) ^ binaryExponent numerator denominator ≤ numerator / denominator
      ∧ (numerator / denominator : ℚ) < 2 ^ (binaryExponent numerator denominator + 1) := by
  have denominatorRat : (0 : ℚ) < denominator := by exact_mod_cast denominatorPositive
  have numeratorLow : (2 : ℚ) ^ (Nat.log2 numerator : Int) ≤ numerator := by
    rw [zpow_natCast]
    exact_mod_cast Nat.log2_self_le (Nat.pos_iff_ne_zero.1 positive)
  have numeratorHigh : (numerator : ℚ) < 2 ^ ((Nat.log2 numerator : Int) + 1) := by
    have bound : numerator < 2 ^ (Nat.log2 numerator + 1) := Nat.lt_log2_self
    exact_mod_cast bound
  have denominatorLow : (2 : ℚ) ^ (Nat.log2 denominator : Int) ≤ denominator := by
    rw [zpow_natCast]
    exact_mod_cast Nat.log2_self_le (Nat.pos_iff_ne_zero.1 denominatorPositive)
  have denominatorHigh : (denominator : ℚ) < 2 ^ ((Nat.log2 denominator : Int) + 1) := by
    have bound : denominator < 2 ^ (Nat.log2 denominator + 1) := Nat.lt_log2_self
    exact_mod_cast bound
  generalize estimated : (Nat.log2 numerator : Int) - Nat.log2 denominator = estimate
  have below : (2 : ℚ) ^ (estimate - 1) ≤ numerator / denominator := by
    rw [le_div_iff₀ denominatorRat]
    calc (2 : ℚ) ^ (estimate - 1) * denominator
        ≤ 2 ^ (estimate - 1) * 2 ^ ((Nat.log2 denominator : Int) + 1) := by
          exact mul_le_mul_of_nonneg_left denominatorHigh.le (by positivity)
      _ = 2 ^ (Nat.log2 numerator : Int) := by
          rw [← zpow_add₀ two_ne_zero]
          congr 1
          omega
      _ ≤ numerator := numeratorLow
  have above : (numerator / denominator : ℚ) < 2 ^ (estimate + 1) := by
    rw [div_lt_iff₀ denominatorRat]
    calc (numerator : ℚ) < 2 ^ ((Nat.log2 numerator : Int) + 1) := numeratorHigh
      _ = 2 ^ (estimate + 1) * 2 ^ (Nat.log2 denominator : Int) := by
          rw [← zpow_add₀ two_ne_zero]
          congr 1
          omega
      _ ≤ 2 ^ (estimate + 1) * denominator := by
          exact mul_le_mul_of_nonneg_left denominatorLow (by positivity)
  have scaledPositive := unscale_snd_pos denominatorPositive numerator estimate
  have scaledRat : (0 : ℚ) < (unscale numerator denominator estimate).2 := by
    exact_mod_cast scaledPositive
  have ratio := unscale_ratio numerator denominator estimate
  have reached : (unscale numerator denominator estimate).2
        ≤ (unscale numerator denominator estimate).1
      ↔ (2 : ℚ) ^ estimate ≤ numerator / denominator := by
    rw [← one_le_div₀ (by positivity : (0 : ℚ) < 2 ^ estimate), ← ratio, one_le_div₀ scaledRat,
      Nat.cast_le]
  simp only [binaryExponent, estimated]
  split
  · next atLeast => exact ⟨reached.1 atLeast, above⟩
  · next short =>
      refine ⟨below, ?_⟩
      rw [sub_add_cancel]
      exact not_le.1 fun atLeast => short (reached.2 atLeast)

/-! ### The interval of a double -/

namespace Finite

/-- The rationals that round to a double that is not zero; the ends of the interval belong to
it exactly when the significand is even. -/
def Covers (value : Finite) (point : ℚ) : Prop :=
  if value.significand % 2 = 0 then
    (value.interval.1 : ℚ) * 2 ^ (value.exponent - 2) ≤ point
      ∧ point ≤ (value.interval.2.2 : ℚ) * 2 ^ (value.exponent - 2)
  else
    (value.interval.1 : ℚ) * 2 ^ (value.exponent - 2) < point
      ∧ point < (value.interval.2.2 : ℚ) * 2 ^ (value.exponent - 2)

variable {value : Finite} {point : ℚ}

/-- The interval in units of the last place. -/
theorem Covers.near (covers : value.Covers point) (nonzero : value.significand ≠ 0) :
    (value.significand : ℚ) - 1 / 2 ≤ point / 2 ^ value.exponent
      ∧ point / 2 ^ value.exponent ≤ value.significand + 1 / 2
      ∧ (value.significand % 2 = 1 →
        (value.significand : ℚ) - 1 / 2 < point / 2 ^ value.exponent
          ∧ point / 2 ^ value.exponent < value.significand + 1 / 2)
      ∧ (value.significand = 2 ^ 52 → -1074 < value.exponent →
        (value.significand : ℚ) - 1 / 4 ≤ point / 2 ^ value.exponent) := by
  have unit : (0 : ℚ) < 2 ^ value.exponent := by positivity
  have quarter : (2 : ℚ) ^ (value.exponent - 2) = 2 ^ value.exponent / 4 := by
    rw [zpow_sub₀ two_ne_zero]
    norm_num
  have upper : (value.interval.2.2 : ℚ) = 4 * value.significand + 2 := by
    simp [interval]
  have lower : (4 * value.significand - 2 : ℚ) ≤ value.interval.1 := by
    simp only [interval]
    split <;> (push_cast [Nat.cast_sub (by omega : 1 ≤ 4 * value.significand),
      Nat.cast_sub (by omega : 2 ≤ 4 * value.significand)]; linarith)
  have boundary : value.significand = 2 ^ 52 → -1074 < value.exponent →
      (value.interval.1 : ℚ) = 4 * value.significand - 1 := by
    intro power normal
    simp only [interval, Nat.pow_eq]
    rw [if_pos ⟨power, normal⟩]
    push_cast [Nat.cast_sub (by omega : 1 ≤ 4 * value.significand)]
    ring
  unfold Covers at covers
  rw [quarter, upper] at covers
  simp only [le_div_iff₀ unit, div_le_iff₀ unit, lt_div_iff₀ unit, div_lt_iff₀ unit]
  have widened := mul_le_mul_of_nonneg_right lower unit.le
  split at covers
  · next even =>
      refine ⟨by linarith, by linarith, fun odd => by omega, fun power normal => ?_⟩
      rw [boundary power normal] at covers
      linarith
  · next odd =>
      refine ⟨by linarith, by linarith, fun _ => ⟨by linarith, by linarith⟩, fun power _ => ?_⟩
      omega

theorem Covers.pos (covers : value.Covers point) (nonzero : value.significand ≠ 0) : 0 < point := by
  have unit : (0 : ℚ) < 2 ^ value.exponent := by positivity
  obtain ⟨low, _⟩ := covers.near nonzero
  have atLeastOne : (1 : ℚ) ≤ value.significand := by
    exact_mod_cast Nat.one_le_iff_ne_zero.2 nonzero
  have quotient : 0 < point / 2 ^ value.exponent := by linarith
  exact (div_pos_iff_of_pos_right unit).1 quotient

end Finite

/-! ### Rounding to a double -/

theorem ofScaled_finite (value : Finite) :
    ofScaled value.negative value.significand value.exponent = .finite value := by
  rw [ofScaled, dif_pos value.canonical]

/-- Two powers of two that enclose the same number are one. -/
private theorem exponent_unique {point : ℚ} {first second : Int}
    (low : (2 : ℚ) ^ first ≤ point) (high : point < 2 ^ (first + 1))
    (otherLow : (2 : ℚ) ^ second ≤ point) (otherHigh : point < 2 ^ (second + 1)) :
    first = second := by
  have one := (zpow_lt_zpow_iff_right₀ (one_lt_two (α := ℚ))).1 (lt_of_le_of_lt low otherHigh)
  have two := (zpow_lt_zpow_iff_right₀ (one_lt_two (α := ℚ))).1 (lt_of_le_of_lt otherLow high)
  omega

/-- A quotient in the interval of a double rounds to this double. -/
theorem ofRatio_of_covers {value : Finite} {numerator denominator : Nat}
    (positive : 0 < denominator) (nonzero : value.significand ≠ 0)
    (covers : value.Covers (numerator / denominator)) :
    ofRatio value.negative numerator denominator = .finite value := by
  have unit : (0 : ℚ) < 2 ^ value.exponent := by positivity
  have pointPositive := covers.pos nonzero
  obtain ⟨low, high, strict, boundary⟩ := covers.near nonzero
  obtain ⟨short, least, greatest, normal⟩ := value.canonical
  simp only [Nat.pow_eq] at short normal
  have numeratorPositive : 0 < numerator := by
    rcases Nat.eq_zero_or_pos numerator with rfl | positive
    · simp at pointPositive
    · exact positive
  obtain ⟨exponentLow, exponentHigh⟩ := binaryExponent_spec numeratorPositive positive
  have upTo : ∀ steps : Int, (2 : ℚ) ^ (value.exponent + steps) = 2 ^ steps * 2 ^ value.exponent := by
    intro steps
    rw [add_comm, zpow_add₀ two_ne_zero]
  have shortRat : (value.significand : ℚ) + 1 ≤ 2 ^ 53 := by exact_mod_cast short
  have belowTop : (numerator / denominator : ℚ) < 2 ^ (value.exponent + 53) := by
    rw [upTo, ← div_lt_iff₀ unit]
    norm_num at shortRat ⊢
    linarith
  rw [ofRatio, if_neg (Nat.pos_iff_ne_zero.1 numeratorPositive)]
  have scaledPositive := unscale_snd_pos positive numerator
  have ratio := unscale_ratio numerator denominator
  generalize binaryExponent numerator denominator = binary at exponentLow exponentHigh ⊢
  have binaryLe : binary < value.exponent + 53 :=
    (zpow_lt_zpow_iff_right₀ (one_lt_two (α := ℚ))).1 (lt_of_le_of_lt exponentLow belowTop)
  by_cases reached : value.exponent = -1074 ∨ (2 : ℚ) ^ 52 ≤ numerator / denominator / 2 ^ value.exponent
  · -- the quotient has the exponent of the double
    have same : max (binary - 52) (-1074) = value.exponent := by
      rcases reached with lowest | atLeast
      · omega
      · have atLeastPower : (2 : ℚ) ^ (value.exponent + 52) ≤ numerator / denominator := by
          rw [upTo, ← le_div_iff₀ unit]
          exact_mod_cast atLeast
        have equal := exponent_unique exponentLow exponentHigh atLeastPower
          (by rw [add_assoc]; exact belowTop)
        omega
    have rounded : roundQuotient (unscale numerator denominator value.exponent).1
        (unscale numerator denominator value.exponent).2 = value.significand := by
      refine roundQuotient_eq (scaledPositive _) ?_ ?_ fun odd => ?_
      · rw [ratio]; exact low
      · rw [ratio]; exact high
      · rw [ratio]; exact strict odd
    simp only [same, rounded, Nat.pow_eq]
    rw [if_neg (Nat.ne_of_lt short), ofScaled_finite]
  · -- the quotient lies just below the power of two that the double is
    rw [not_or, not_le] at reached
    obtain ⟨notLowest, below⟩ := reached
    have aboveLeast : -1074 < value.exponent := by omega
    have atLeast : 2 ^ 52 ≤ value.significand := by omega
    have power : value.significand = 2 ^ 52 := by
      have bound : (value.significand : ℚ) < 2 ^ 52 + 1 := by linarith
      have boundNat : value.significand < 2 ^ 52 + 1 := by exact_mod_cast bound
      omega
    have close := boundary power aboveLeast
    have significandRat : (value.significand : ℚ) = 2 ^ 52 := by
      rw [power]
      norm_num
    rw [significandRat] at close
    have previousLow : (2 : ℚ) ^ (value.exponent + 51) ≤ numerator / denominator := by
      rw [upTo, ← le_div_iff₀ unit]
      norm_num at close ⊢
      linarith
    have previousHigh : (numerator / denominator : ℚ) < 2 ^ (value.exponent + 51 + 1) := by
      rw [add_assoc, upTo, ← div_lt_iff₀ unit]
      exact_mod_cast below
    have equal := exponent_unique exponentLow exponentHigh previousLow previousHigh
    have before : max (binary - 52) (-1074) = value.exponent - 1 := by omega
    have doubled : ((unscale numerator denominator (value.exponent - 1)).1 : ℚ)
        / (unscale numerator denominator (value.exponent - 1)).2 =
          2 * (numerator / denominator / 2 ^ value.exponent) := by
      rw [ratio, zpow_sub_one₀ two_ne_zero]
      field_simp
    have rounded : roundQuotient (unscale numerator denominator (value.exponent - 1)).1
        (unscale numerator denominator (value.exponent - 1)).2 = 2 ^ 53 := by
      refine roundQuotient_eq (scaledPositive _) ?_ ?_ fun odd => by norm_num at odd
      · rw [doubled]
        push_cast
        linarith
      · rw [doubled]
        push_cast
        linarith
    simp only [before, rounded, Nat.pow_eq, if_true]
    rw [sub_add_cancel, ← power, ofScaled_finite]

end DocumentStore.Double
