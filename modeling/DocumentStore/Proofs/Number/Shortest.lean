import DocumentStore.Proofs.Number.Rounding

/-!
Contract: the shortest digits of a double lie in its interval.

Owns: what a candidate on a decimal grid satisfies, the success of the search within
seventeen digits, and the interval that holds the digits found.

Does not own: that no fewer digits would do, nor the layout of the digits.

On the finest grid the distance of two neighbours is less than nine tenths of the last
place, so the nearer one is less than half of the last place away. Just above a power of
two the interval is half as wide below, but there two neighbours are less than half of the
last place apart, and the upper one lies inside.
-/

set_option autoImplicit false

namespace DocumentStore.Double.Finite

/-! ### Magnitudes -/

/-- The magnitude of a double. -/
def magnitude (value : Finite) : ℚ :=
  value.significand * 2 ^ value.exponent

theorem ratio_snd_pos (value : Finite) : 0 < value.ratio.2 := by
  unfold ratio
  split
  · exact Nat.one_pos
  · exact Nat.pow_pos Nat.two_pos

theorem ratio_eq_magnitude (value : Finite) :
    (value.ratio.1 : ℚ) / value.ratio.2 = value.magnitude := by
  unfold ratio magnitude
  split
  · next nonnegative =>
      have cast : (value.exponent.toNat : Int) = value.exponent := Int.toNat_of_nonneg nonnegative
      simp only [Nat.pow_eq, Nat.cast_mul, Nat.cast_pow, Nat.cast_ofNat, Nat.cast_one, div_one]
      rw [← zpow_natCast, cast]
  · next negative =>
      have cast : ((-value.exponent).toNat : Int) = -value.exponent :=
        Int.toNat_of_nonneg (by omega)
      simp only [Nat.pow_eq, Nat.cast_pow, Nat.cast_ofNat]
      rw [← zpow_natCast, cast, zpow_neg, div_inv_eq_mul]

theorem quarterUnit_ratio (value : Finite) :
    (value.quarterUnit.1 : ℚ) / value.quarterUnit.2 = 2 ^ (value.exponent - 2) := by
  unfold quarterUnit
  dsimp only
  split
  · next nonnegative =>
      have cast := Int.toNat_of_nonneg nonnegative
      simp only [Nat.pow_eq, Nat.cast_pow, Nat.cast_ofNat, Nat.cast_one, div_one]
      rw [← zpow_natCast, cast]
  · next negative =>
      have cast : ((-(value.exponent - 2)).toNat : Int) = -(value.exponent - 2) :=
        Int.toNat_of_nonneg (by omega)
      simp only [Nat.pow_eq, Nat.cast_pow, Nat.cast_ofNat, Nat.cast_one]
      rw [← zpow_natCast, cast, zpow_neg, one_div, inv_inv]

theorem quarterUnit_snd_pos (value : Finite) : 0 < value.quarterUnit.2 := by
  unfold quarterUnit
  dsimp only
  split
  · exact Nat.one_pos
  · exact Nat.pow_pos Nat.two_pos

/-! ### The power of ten below a quotient -/

theorem pow_length_toDigits_le {number : Nat} (positive : 0 < number) :
    10 ^ ((Nat.toDigits 10 number).length - 1) ≤ number := by
  rcases Nat.eq_zero_or_pos ((Nat.toDigits 10 number).length - 1) with single | several
  · rw [single]
    exact positive
  · refine Nat.le_of_not_lt fun less => ?_
    have short := (Nat.length_toDigits_le_iff (by decide) several).2 less
    omega

theorem lt_pow_length_toDigits (number : Nat) : number < 10 ^ (Nat.toDigits 10 number).length :=
  (Nat.length_toDigits_le_iff (by decide) Nat.length_toDigits_pos).1 (Nat.le_refl _)

theorem decimalExponent_le {numerator denominator : Nat} (positive : 0 < numerator)
    (denominatorPositive : 0 < denominator) :
    (10 : ℚ) ^ decimalExponent numerator denominator ≤ numerator / denominator := by
  have denominatorRat : (0 : ℚ) < denominator := by exact_mod_cast denominatorPositive
  unfold decimalExponent
  split
  · next atLeastOne =>
      have quotientPositive := Nat.div_pos atLeastOne denominatorPositive
      have bound := pow_length_toDigits_le quotientPositive
      have length := Nat.length_toDigits_pos (b := 10) (n := numerator / denominator)
      have cast : ((Nat.toDigits 10 (numerator / denominator)).length : Int) - 1 =
          ((Nat.toDigits 10 (numerator / denominator)).length - 1 : Nat) := by omega
      rw [cast, zpow_natCast, le_div_iff₀ denominatorRat]
      exact_mod_cast (Nat.le_div_iff_mul_le denominatorPositive).1 bound
  · have length := Nat.length_toDigits_pos (b := 10) (n := denominator / numerator)
    have bound := lt_pow_length_toDigits (denominator / numerator)
    generalize (Nat.toDigits 10 (denominator / numerator)).length = width at length bound ⊢
    dsimp only
    split
    · next fits =>
        have cast : (1 : Int) - width = -((width - 1 : Nat) : Int) := by omega
        rw [cast, zpow_neg, zpow_natCast, inv_le_iff_one_le_mul₀ (by positivity), ← mul_div_right_comm,
          one_le_div₀ denominatorRat]
        exact_mod_cast fits
    · have reached := (Nat.div_lt_iff_lt_mul positive).1 bound
      rw [zpow_neg, zpow_natCast, inv_le_iff_one_le_mul₀ (by positivity), ← mul_div_right_comm,
        one_le_div₀ denominatorRat]
      have swapped : denominator ≤ numerator * 10 ^ width := by
        rw [Nat.mul_comm]
        exact reached.le
      exact_mod_cast swapped

/-! ### Candidates on a grid -/

section Grid

variable {value : Finite} {exponent : Int}

theorem Covers.of_lt {point : ℚ}
    (low : (value.interval.1 : ℚ) * 2 ^ (value.exponent - 2) < point)
    (high : point < (value.interval.2.2 : ℚ) * 2 ^ (value.exponent - 2)) : value.Covers point := by
  unfold Covers
  split
  · exact ⟨low.le, high.le⟩
  · exact ⟨low, high⟩

/-- The comparisons with the ends of the interval decide whether a point of the grid lies in it. -/
private theorem inside_iff {unit scale : Nat} (positive : 0 < scale)
    (ratio : (unit : ℚ) / scale = 2 ^ (value.exponent - 2) / 10 ^ exponent) (point : Nat) :
    (if value.significand % 2 = 0 then
      decide (value.interval.1 * unit ≤ point * scale)
        && decide (point * scale ≤ value.interval.2.2 * unit)
    else
      decide (value.interval.1 * unit < point * scale)
        && decide (point * scale < value.interval.2.2 * unit)) = true
      ↔ value.Covers (point * 10 ^ exponent) := by
  have scaleRat : (0 : ℚ) < scale := by exact_mod_cast positive
  have grid : (0 : ℚ) < 10 ^ exponent := by positivity
  have scaled : ∀ bound : Nat, (bound : ℚ) * 2 ^ (value.exponent - 2) =
      (bound * unit : Nat) / scale * 10 ^ exponent := by
    intro bound
    rw [Nat.cast_mul, mul_div_assoc, ratio, mul_assoc, div_mul_cancel₀ _ grid.ne']
  have atLeast : ∀ bound : Nat, bound * unit ≤ point * scale
      ↔ (bound : ℚ) * 2 ^ (value.exponent - 2) ≤ point * 10 ^ exponent := by
    intro bound
    rw [scaled, mul_le_mul_iff_left₀ grid, div_le_iff₀ scaleRat]
    exact_mod_cast Iff.rfl
  have atMost : ∀ bound : Nat, point * scale ≤ bound * unit
      ↔ (point : ℚ) * 10 ^ exponent ≤ bound * 2 ^ (value.exponent - 2) := by
    intro bound
    rw [scaled, mul_le_mul_iff_left₀ grid, le_div_iff₀ scaleRat]
    exact_mod_cast Iff.rfl
  unfold Covers
  split
  · rw [Bool.and_eq_true, decide_eq_true_iff, decide_eq_true_iff, atLeast, atMost]
  · rw [Bool.and_eq_true, decide_eq_true_iff, decide_eq_true_iff, ← not_le, ← not_le, atLeast, atMost,
      not_le, not_le]

/-- Rescaling a quotient to a grid divides it by the distance of the grid's points. -/
private theorem rescale_ratio {unit scale gridUnit gridScale : Nat} (positive : 0 < scale)
    (rescaled : (if 0 ≤ exponent then (unit, scale * Nat.pow 10 exponent.toNat)
      else (unit * Nat.pow 10 (-exponent).toNat, scale)) = (gridUnit, gridScale)) :
    0 < gridScale ∧ (gridUnit : ℚ) / gridScale = unit / scale / 10 ^ exponent := by
  split at rescaled
  · next nonnegative =>
      obtain ⟨rfl, rfl⟩ := Prod.mk.inj rescaled
      have cast : (exponent.toNat : Int) = exponent := Int.toNat_of_nonneg nonnegative
      refine ⟨Nat.mul_pos positive (Nat.pow_pos (by decide)), ?_⟩
      rw [Nat.pow_eq, Nat.cast_mul, Nat.cast_pow, Nat.cast_ofNat, ← zpow_natCast, cast, div_div]
  · next negative =>
      obtain ⟨rfl, rfl⟩ := Prod.mk.inj rescaled
      have cast : ((-exponent).toNat : Int) = -exponent := Int.toNat_of_nonneg (by omega)
      refine ⟨positive, ?_⟩
      rw [Nat.pow_eq, Nat.cast_mul, Nat.cast_pow, Nat.cast_ofNat, ← zpow_natCast, cast, zpow_neg,
        mul_div_right_comm, ← div_eq_mul_inv]

/-- The search looks at the two neighbours of the double on the grid, and what it takes of them
lies in the interval. -/
theorem nearestOnGrid_spec (value : Finite) (exponent : Int) :
    ∃ below : Nat, (below : ℚ) * 10 ^ exponent ≤ value.magnitude
      ∧ value.magnitude < (below + 1 : Nat) * 10 ^ exponent
      ∧ (∀ digits, value.nearestOnGrid exponent = some digits →
        value.Covers (digits * 10 ^ exponent))
      ∧ (value.nearestOnGrid exponent = none → ¬value.Covers (below * 10 ^ exponent)
        ∧ ¬value.Covers ((below + 1 : Nat) * 10 ^ exponent)) := by
  have quarter := value.quarterUnit_ratio
  have quarterPositive := value.quarterUnit_snd_pos
  have grid : (0 : ℚ) < 10 ^ exponent := by positivity
  have four : (2 : ℚ) ^ value.exponent = 4 * 2 ^ (value.exponent - 2) := by
    rw [zpow_sub₀ two_ne_zero]
    norm_num
    ring
  unfold nearestOnGrid
  split
  next lower centre upper ends =>
  split
  next quarterUnit quarterScale quarters =>
  split
  next unit scale rescaled =>
  rw [quarters] at quarter quarterPositive
  obtain ⟨positive, ratio⟩ := rescale_ratio quarterPositive rescaled
  rw [quarter] at ratio
  have scaleRat : (0 : ℚ) < scale := by exact_mod_cast positive
  have inside := inside_iff positive ratio
  rw [ends] at inside
  dsimp only at inside
  have centreEq : 4 * value.significand = centre := congrArg (fun ends => ends.2.1) ends
  have magnitudeEq : value.magnitude = (centre * unit : Nat) / scale * 10 ^ exponent := by
    rw [magnitude, four, ← centreEq, (div_eq_iff grid.ne').1 ratio.symm]
    push_cast
    ring
  refine ⟨centre * unit / scale, ?_, ?_, ?_, ?_⟩
  · rw [magnitudeEq, mul_le_mul_iff_left₀ grid, le_div_iff₀ scaleRat]
    exact_mod_cast Nat.div_mul_le_self _ _
  · rw [magnitudeEq, mul_lt_mul_iff_left₀ grid, div_lt_iff₀ scaleRat]
    exact_mod_cast Nat.lt_mul_of_div_lt (Nat.lt_succ_self _) positive
  · intro digits found
    dsimp only at found
    by_cases belowInside : value.Covers ((centre * unit / scale : Nat) * 10 ^ exponent)
    · rw [if_pos ((inside _).2 belowInside)] at found
      by_cases aboveInside : value.Covers ((centre * unit / scale + 1 : Nat) * 10 ^ exponent)
      · rw [if_pos ((inside _).2 aboveInside)] at found
        have either : digits = centre * unit / scale ∨ digits = centre * unit / scale + 1 := by
          split_ifs at found <;> (have taken := Option.some.inj found; omega)
        rcases either with rfl | rfl
        · exact belowInside
        · exact aboveInside
      · rw [if_neg (mt (inside _).1 aboveInside)] at found
        obtain rfl := Option.some.inj found
        exact belowInside
    · rw [if_neg (mt (inside _).1 belowInside)] at found
      by_cases aboveInside : value.Covers ((centre * unit / scale + 1 : Nat) * 10 ^ exponent)
      · rw [if_pos ((inside _).2 aboveInside)] at found
        obtain rfl := Option.some.inj found
        exact aboveInside
      · rw [if_neg (mt (inside _).1 aboveInside)] at found
        cases found
  · intro missing
    dsimp only at missing
    by_cases belowInside : value.Covers ((centre * unit / scale : Nat) * 10 ^ exponent)
    · rw [if_pos ((inside _).2 belowInside)] at missing
      split_ifs at missing
    · rw [if_neg (mt (inside _).1 belowInside)] at missing
      refine ⟨belowInside, fun aboveInside => ?_⟩
      rw [if_pos ((inside _).2 aboveInside)] at missing
      cases missing

/-- A grid on which a double has at least seventeen digits has a point in its interval. -/
theorem nearestOnGrid_ne_none (fine : (10 : ℚ) ^ exponent * 10 ^ 16 ≤ value.magnitude) :
    value.nearestOnGrid exponent ≠ none := by
  intro missing
  obtain ⟨below, belowLe, aboveGt, _, outside⟩ := value.nearestOnGrid_spec exponent
  obtain ⟨belowOutside, aboveOutside⟩ := outside missing
  have unit : (0 : ℚ) < 2 ^ value.exponent := by positivity
  have quarter : (2 : ℚ) ^ (value.exponent - 2) = 2 ^ value.exponent / 4 := by
    rw [zpow_sub₀ two_ne_zero]
    norm_num
  have upper : (value.interval.2.2 : ℚ) = 4 * value.significand + 2 := by
    simp [interval]
  have short : (value.significand : ℚ) < 2 ^ 53 := by
    have short := value.canonical.1
    rw [Nat.pow_eq] at short
    exact_mod_cast short
  push_cast at aboveGt aboveOutside
  rw [magnitude] at fine belowLe aboveGt
  have nonzero : value.significand ≠ 0 := by
    intro zero
    rw [zero] at fine
    have positive : (0 : ℚ) < 10 ^ exponent := by positivity
    simp at fine
    linarith
  by_cases boundary : value.significand = 2 ^ 52 ∧ -1074 < value.exponent
  · -- the upper neighbour is less than half of the last place away
    have lower : (value.interval.1 : ℚ) ≤ 4 * value.significand := by
      have lower : value.interval.1 ≤ 4 * value.significand := by
        simp only [interval]
        split <;> omega
      exact_mod_cast lower
    have power : (value.significand : ℚ) = 2 ^ 52 := by exact_mod_cast boundary.1
    refine aboveOutside (Covers.of_lt ?_ ?_)
    · rw [quarter]
      nlinarith
    · rw [quarter, upper]
      rw [power] at fine belowLe ⊢
      nlinarith
  · -- one of the neighbours is less than half of the last place away
    have lower : (value.interval.1 : ℚ) = 4 * value.significand - 2 := by
      simp only [interval, Nat.pow_eq, if_neg boundary]
      push_cast [Nat.cast_sub (by omega : 2 ≤ 4 * value.significand)]
      ring
    have close : (10 : ℚ) ^ exponent < 2 ^ value.exponent := by nlinarith
    rcases lt_or_ge ((value.significand : ℚ) * 2 ^ value.exponent - below * 10 ^ exponent)
      (2 ^ value.exponent / 2) with nearBelow | farBelow
    · refine belowOutside (Covers.of_lt ?_ ?_)
      · rw [quarter, lower]
        linarith
      · rw [quarter, upper]
        linarith
    · refine aboveOutside (Covers.of_lt ?_ ?_)
      · rw [quarter, lower]
        linarith
      · rw [quarter, upper]
        linarith

/-- The digits that the search finds lie in the interval of the double. -/
theorem covers_shortest (nonzero : value.significand ≠ 0) :
    value.Covers (value.shortest.digits * 10 ^ value.shortest.exponent) := by
  have numeratorPositive : 0 < value.ratio.1 := by
    unfold ratio
    split
    · exact Nat.mul_pos (Nat.pos_of_ne_zero nonzero) (Nat.pow_pos Nat.two_pos)
    · exact Nat.pos_of_ne_zero nonzero
  have top := decimalExponent_le numeratorPositive value.ratio_snd_pos
  rw [ratio_eq_magnitude] at top
  unfold shortest
  generalize decimalExponent value.ratio.1 value.ratio.2 = place at top ⊢
  dsimp only
  generalize searched : (List.range 17).findSome? (fun (further : Nat) =>
    (value.nearestOnGrid (place - further)).map fun digits =>
      (⟨digits, place - further⟩ : Decimal)) = found
  cases found with
  | none =>
      rw [List.findSome?_eq_none_iff] at searched
      have missing := Option.map_eq_none_iff.1 (searched 16 (by simp))
      refine absurd missing (nearestOnGrid_ne_none ?_)
      rw [← zpow_natCast, ← zpow_add₀ (by norm_num)]
      simpa using top
  | some decimal =>
      obtain ⟨further, _, candidate⟩ := List.exists_of_findSome?_eq_some searched
      obtain ⟨digits, taken, rfl⟩ := Option.map_eq_some_iff.1 candidate
      obtain ⟨_, _, _, inside, _⟩ := value.nearestOnGrid_spec (place - further)
      exact inside digits taken

theorem shortest_digits_ne_zero (nonzero : value.significand ≠ 0) : value.shortest.digits ≠ 0 := by
  intro zero
  have positive := (covers_shortest nonzero).pos nonzero
  rw [zero] at positive
  simp at positive

end Grid

end DocumentStore.Double.Finite
