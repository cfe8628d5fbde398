import DocumentStore.Number.Double
import Mathlib.Algebra.Group.Nat.Defs

/-!
Contract: which integers are past the greatest double.

Owns: the scaling of an integer to a significand, the bounds of what it rounds to, and the least
integer without a double.

Does not own: the double of any other number.

The significand of an integer has 53 bits before it is rounded. Rounding can carry into the next
power of two, so that the last integer with a double lies short of the midpoint between the
greatest double and the next power of two.
-/

set_option autoImplicit false

namespace DocumentStore.Double

/-! ### Rounding upwards -/

section Rounding

variable {numerator denominator : Nat}

theorem roundQuotient_bounds (numerator denominator : Nat) :
    numerator / denominator ≤ roundQuotient numerator denominator
      ∧ roundQuotient numerator denominator ≤ numerator / denominator + 1 := by
  unfold roundQuotient
  dsimp only
  split
  · omega
  · split <;> omega

/-- A quotient rounds past an odd integer from the midpoint after it on. -/
theorem lt_roundQuotient_iff {odd : Nat} (isOdd : odd % 2 = 1) (positive : 0 < denominator) :
    odd < roundQuotient numerator denominator ↔ (2 * odd + 1) * denominator ≤ 2 * numerator := by
  have division := Nat.div_add_mod numerator denominator
  have remainderLt := Nat.mod_lt numerator positive
  have bounds := roundQuotient_bounds numerator denominator
  unfold roundQuotient at bounds ⊢
  generalize numerator / denominator = quotient at division bounds ⊢
  generalize numerator % denominator = remainder at division remainderLt bounds ⊢
  subst division
  rcases Nat.lt_trichotomy quotient odd with below | rfl | above
  · -- at most the odd integer itself
    have steps : denominator * quotient + denominator ≤ odd * denominator := by
      rw [Nat.mul_comm denominator, ← Nat.succ_mul]
      exact Nat.mul_le_mul_right _ below
    have expanded : (2 * odd + 1) * denominator = 2 * (odd * denominator) + denominator := by
      rw [Nat.succ_mul, Nat.mul_assoc]
    dsimp only at bounds ⊢
    omega
  · have expanded : (2 * quotient + 1) * denominator = 2 * (denominator * quotient) + denominator := by
      rw [Nat.succ_mul, Nat.mul_assoc, Nat.mul_comm denominator]
    dsimp only
    split
    · omega
    · split <;> omega
  · have steps : odd * denominator + denominator ≤ denominator * quotient := by
      rw [← Nat.succ_mul, Nat.mul_comm denominator]
      exact Nat.mul_le_mul_right _ above
    have expanded : (2 * odd + 1) * denominator = 2 * (odd * denominator) + denominator := by
      rw [Nat.succ_mul, Nat.mul_assoc]
    dsimp only at bounds ⊢
    omega

end Rounding

/-! ### Integers -/

section Integers

variable {magnitude : Nat}

theorem binaryExponent_one (positive : 0 < magnitude) :
    binaryExponent magnitude 1 = Nat.log2 magnitude := by
  have reached := Nat.log2_self_le (Nat.pos_iff_ne_zero.1 positive)
  have estimate : (Nat.log2 magnitude : Int) - (Nat.log2 1 : Int) = Nat.log2 magnitude := by
    have one : Nat.log2 1 = 0 := by decide
    rw [one]
    omega
  simp only [binaryExponent, estimate, unscale, if_pos (Int.natCast_nonneg _), Int.toNat_natCast,
    Nat.one_mul, Nat.pow_eq, if_pos reached]

/-- An integer is scaled to a quotient of 53 bits. -/
theorem unscale_bounds (positive : 0 < magnitude) :
    let scaled := unscale magnitude 1 ((Nat.log2 magnitude : Int) - 52)
    0 < scaled.2 ∧ 2 ^ 52 * scaled.2 ≤ scaled.1 ∧ scaled.1 < 2 ^ 53 * scaled.2 := by
  have low := Nat.log2_self_le (Nat.pos_iff_ne_zero.1 positive)
  have high : magnitude < 2 ^ (Nat.log2 magnitude + 1) := Nat.lt_log2_self
  generalize Nat.log2 magnitude = binary at low high ⊢
  intro scaled
  by_cases long : 52 ≤ binary
  · obtain ⟨exponent, rfl⟩ := Nat.exists_eq_add_of_le long
    have scaledTo : scaled = (magnitude, 2 ^ exponent) := by
      have difference : ((52 + exponent : Nat) : Int) - 52 = exponent := by omega
      simp only [scaled, unscale, difference, if_pos (Int.natCast_nonneg _), Int.toNat_natCast,
        Nat.one_mul, Nat.pow_eq]
    rw [scaledTo]
    refine ⟨Nat.pow_pos Nat.two_pos, ?_, ?_⟩
    · rw [← Nat.pow_add]
      exact low
    · rw [← Nat.pow_add, show 53 + exponent = 52 + exponent + 1 by omega]
      exact high
  · obtain ⟨steps, rest⟩ := Nat.exists_eq_add_of_le (Nat.le_of_not_le long)
    have scaledTo : scaled = (magnitude * 2 ^ steps, 1) := by
      have difference : -((binary : Int) - 52) = steps := by omega
      have negative : ¬0 ≤ (binary : Int) - 52 := by omega
      simp only [scaled, unscale, if_neg negative, difference, Int.toNat_natCast, Nat.pow_eq]
    rw [scaledTo, Nat.mul_one, Nat.mul_one]
    refine ⟨Nat.one_pos, ?_, ?_⟩
    · rw [rest, Nat.pow_add]
      exact Nat.mul_le_mul_right _ low
    · rw [show 53 = binary + 1 + steps by omega, Nat.pow_add]
      exact Nat.mul_lt_mul_of_pos_right high (Nat.pow_pos Nat.two_pos)

/-- The place of the last bit that the greatest double lacks. -/
def lastExponent : Nat :=
  970

/-- The least magnitude without a double. -/
def leastOverflow : Nat :=
  (2 ^ 54 - 1) * 2 ^ lastExponent

theorem leastOverflow_pos : 0 < leastOverflow :=
  Nat.mul_pos (by decide) (Nat.pow_pos Nat.two_pos)

theorem exists_ofScaled_iff {negative : Bool} {significand : Nat} {exponent : Int} :
    (∃ value, ofScaled negative significand exponent = .finite value) ↔
      Canonical significand exponent := by
  unfold ofScaled
  by_cases canonical : Canonical significand exponent
  · rw [dif_pos canonical]
    exact ⟨fun _ => canonical, fun _ => ⟨_, rfl⟩⟩
  · rw [dif_neg canonical]
    refine ⟨fun finite => ?_, fun finite => absurd finite canonical⟩
    obtain ⟨value, same⟩ := finite
    cases same

/-- A significand of 53 bits has a double unless its exponent is too great, or becomes so when it
is carried into the next power of two. -/
theorem exists_carried_iff {negative : Bool} {significand : Nat} {exponent : Int}
    (least : -1074 ≤ exponent) (low : 2 ^ 52 ≤ significand) (high : significand ≤ 2 ^ 53) :
    (∃ value, (if significand = Nat.pow 2 53 then ofScaled negative (Nat.pow 2 52) (exponent + 1)
        else ofScaled negative significand exponent) = .finite value) ↔
      exponent ≤ 970 ∨ (exponent = 971 ∧ significand < 2 ^ 53) := by
  simp only [Nat.pow_eq]
  split
  · rw [exists_ofScaled_iff, Canonical]
    simp only [Nat.pow_eq]
    omega
  · rw [exists_ofScaled_iff, Canonical]
    simp only [Nat.pow_eq]
    omega

/-- The integers short of the least one without a double round to one. -/
theorem exists_ofRatio_iff (positive : 0 < magnitude) (negative : Bool) :
    (∃ value, ofRatio negative magnitude 1 = .finite value) ↔ magnitude < leastOverflow := by
  have reached := Nat.log2_self_le (Nat.pos_iff_ne_zero.1 positive)
  have bounded : magnitude < 2 ^ (Nat.log2 magnitude + 1) := Nat.lt_log2_self
  obtain ⟨scalePositive, low, high⟩ := unscale_bounds positive
  have exponent : max (binaryExponent magnitude 1 - 52) (-1074) = (Nat.log2 magnitude : Int) - 52 := by
    rw [binaryExponent_one positive]
    omega
  rw [ofRatio, if_neg (Nat.pos_iff_ne_zero.1 positive)]
  simp only [exponent]
  have bounds := roundQuotient_bounds
    (unscale magnitude 1 ((Nat.log2 magnitude : Int) - 52)).1
    (unscale magnitude 1 ((Nat.log2 magnitude : Int) - 52)).2
  have atLeast := (Nat.le_div_iff_mul_le scalePositive).2 low
  have below := (Nat.div_lt_iff_lt_mul scalePositive).2 high
  rw [exists_carried_iff (by omega) (Nat.le_trans atLeast bounds.1) (by omega), leastOverflow]
  -- the powers of two are too great to be evaluated
  have known : lastExponent = 970 := rfl
  generalize lastExponent = last at known ⊢
  rcases Nat.lt_trichotomy (Nat.log2 magnitude) 1023 with small | same | great
  · have under : 2 ^ (Nat.log2 magnitude + 1) ≤ 2 ^ (53 + last) :=
      Nat.pow_le_pow_right Nat.two_pos (by omega)
    rw [Nat.pow_add 2 53] at under
    omega
  · have scaled : unscale magnitude 1 ((Nat.log2 magnitude : Int) - 52) = (magnitude, 2 ^ (last + 1)) := by
      have difference : (Nat.log2 magnitude : Int) - 52 = (last + 1 : Nat) := by omega
      rw [difference, unscale, if_pos (Int.natCast_nonneg _), Int.toNat_natCast, Nat.one_mul,
        Nat.pow_eq]
    have carried := @lt_roundQuotient_iff magnitude (2 ^ (last + 1)) (2 ^ 53 - 1) (by decide)
      (Nat.pow_pos Nat.two_pos)
    rw [scaled]
    rw [@Nat.pow_succ 2 last] at carried ⊢
    dsimp only
    omega
  · have beyond : 2 ^ (54 + last) ≤ 2 ^ Nat.log2 magnitude :=
      Nat.pow_le_pow_right Nat.two_pos (by omega)
    rw [Nat.pow_add 2 54] at beyond
    omega

end Integers

/-- The integers without a double are those past the midpoint between the greatest double and the
power of two that would come next. -/
theorem ofInt?_eq_none_iff {number : Int} :
    ofInt? number = none ↔ leastOverflow ≤ number.natAbs := by
  have finite : (∃ value, ofRatio (decide (number < 0)) number.natAbs 1 = .finite value) ↔
      number.natAbs < leastOverflow := by
    rcases Nat.eq_zero_or_pos number.natAbs with zero | positive
    · rw [zero, ofRatio, if_pos rfl]
      exact ⟨fun _ => leastOverflow_pos, fun _ => ⟨_, rfl⟩⟩
    · exact exists_ofRatio_iff positive _
  rw [← Nat.not_lt, ← finite, ofInt?]
  split
  · next value rounded =>
      exact ⟨fun missing => (by cases missing), fun unrounded => absurd ⟨value, rounded⟩ unrounded⟩
  · next other =>
      refine ⟨fun _ found => ?_, fun _ => rfl⟩
      obtain ⟨value, rounded⟩ := found
      exact other value rounded

end DocumentStore.Double
