import DocumentStore.Proofs.Number.Shortest
import DocumentStore.Number.Numeral

/-!
Contract: the text of a number is read back as this number.

Owns: the text of a numeral, the reading of it in front of a text that does not continue it,
and the numerals that integers and doubles are written as.

Does not own: the values that are written as words.

A double is written as some decimal in its interval, and every decimal there is read as this
double. So it does not matter how the digits are laid out, only what they are worth.
-/

set_option autoImplicit false

namespace DocumentStore

/-! ### Decimals in the interval of a double -/

namespace Double

section Decimals

variable {value : Finite} {point : ℚ}

private theorem two_pow_lt_ten_pow : 2 ^ 1024 < 10 ^ 400 ∧ 2 ^ 1075 < 10 ^ 401 := by
  decide +kernel

private theorem Finite.Covers.lt_top (covers : value.Covers point) (nonzero : value.significand ≠ 0) :
    point < 10 ^ (400 : Int) := by
  have unit : (0 : ℚ) < 2 ^ value.exponent := by positivity
  obtain ⟨_, high, _, _⟩ := covers.near nonzero
  obtain ⟨short, _, greatest, _⟩ := value.canonical
  rw [Nat.pow_eq] at short
  have shortRat : (value.significand : ℚ) + 1 ≤ 2 ^ 53 := by exact_mod_cast short
  rw [div_le_iff₀ unit] at high
  calc point ≤ (value.significand + 1 / 2) * 2 ^ value.exponent := high
    _ ≤ 2 ^ 53 * 2 ^ value.exponent := by
        refine mul_le_mul_of_nonneg_right ?_ unit.le
        linarith
    _ ≤ 2 ^ 53 * 2 ^ (971 : Int) := by
        refine mul_le_mul_of_nonneg_left ?_ (by norm_num)
        exact zpow_le_zpow_right₀ one_le_two greatest
    _ = (2 ^ 1024 : Nat) := by
        rw [Nat.cast_pow, Nat.cast_ofNat, ← zpow_natCast, ← zpow_natCast, ← zpow_add₀ two_ne_zero]
        rfl
    _ < (10 ^ 400 : Nat) := by exact_mod_cast two_pow_lt_ten_pow.1
    _ = 10 ^ (400 : Int) := by
        rw [Nat.cast_pow, Nat.cast_ofNat, ← zpow_natCast]
        rfl

private theorem Finite.Covers.bottom_lt (covers : value.Covers point)
    (nonzero : value.significand ≠ 0) : (10 : ℚ) ^ (-401 : Int) < point := by
  have unit : (0 : ℚ) < 2 ^ value.exponent := by positivity
  obtain ⟨low, _, _, _⟩ := covers.near nonzero
  obtain ⟨_, least, _, _⟩ := value.canonical
  have atLeastOne : (1 : ℚ) ≤ value.significand := by exact_mod_cast Nat.pos_of_ne_zero nonzero
  rw [le_div_iff₀ unit] at low
  calc (10 : ℚ) ^ (-401 : Int) = ((10 ^ 401 : Nat) : ℚ)⁻¹ := by
        rw [Nat.cast_pow, Nat.cast_ofNat, ← zpow_natCast, ← zpow_neg]
        rfl
    _ < ((2 ^ 1075 : Nat) : ℚ)⁻¹ := by
        rw [inv_lt_inv₀ (by positivity) (by positivity)]
        exact_mod_cast two_pow_lt_ten_pow.2
    _ = 1 / 2 * 2 ^ (-1074 : Int) := by
        rw [Nat.cast_pow, Nat.cast_ofNat, ← zpow_natCast, ← zpow_neg, one_div, ← zpow_neg_one,
          ← zpow_add₀ two_ne_zero]
        rfl
    _ ≤ 1 / 2 * 2 ^ value.exponent := by
        refine mul_le_mul_of_nonneg_left ?_ (by norm_num)
        exact zpow_le_zpow_right₀ one_le_two least
    _ ≤ (value.significand - 1 / 2) * 2 ^ value.exponent := by
        refine mul_le_mul_of_nonneg_right ?_ unit.le
        linarith
    _ ≤ point := low

/-- A decimal in the interval of a double is read as this double. -/
theorem ofDecimal_of_covers {digits : Nat} {exponent : Int} (nonzero : value.significand ≠ 0)
    (covers : value.Covers (digits * 10 ^ exponent)) :
    ofDecimal value.negative digits exponent = .finite value := by
  have power : (0 : ℚ) < 10 ^ exponent := by positivity
  have digitsNonzero : digits ≠ 0 := by
    rintro rfl
    have positive := covers.pos nonzero
    simp at positive
  have lengthPositive := Nat.length_toDigits_pos (b := 10) (n := digits)
  have lower := Finite.pow_length_toDigits_le (Nat.pos_of_ne_zero digitsNonzero)
  have upper := Finite.lt_pow_length_toDigits digits
  unfold ofDecimal
  rw [if_neg digitsNonzero]
  generalize (Nat.toDigits 10 digits).length = length at lengthPositive lower upper ⊢
  have notHuge : ¬400 < (length : Int) + exponent := by
    intro huge
    have lowerRat : (10 : ℚ) ^ ((length : Int) - 1) ≤ digits := by
      have cast : (length : Int) - 1 = (length - 1 : Nat) := by omega
      rw [cast, zpow_natCast]
      exact_mod_cast lower
    have reached : (10 : ℚ) ^ (400 : Int) ≤ digits * 10 ^ exponent := by
      calc (10 : ℚ) ^ (400 : Int) ≤ 10 ^ ((length : Int) - 1 + exponent) := by
            exact zpow_le_zpow_right₀ (by norm_num) (by omega)
        _ = 10 ^ ((length : Int) - 1) * 10 ^ exponent := zpow_add₀ (by norm_num) _ _
        _ ≤ digits * 10 ^ exponent := mul_le_mul_of_nonneg_right lowerRat power.le
    exact absurd (covers.lt_top nonzero) (not_lt.2 reached)
  have notTiny : ¬(length : Int) + exponent < -400 := by
    intro tiny
    have upperRat : (digits : ℚ) ≤ 10 ^ (length : Int) := by
      rw [zpow_natCast]
      exact_mod_cast upper.le
    have short : (digits : ℚ) * 10 ^ exponent ≤ 10 ^ (-401 : Int) := by
      calc (digits : ℚ) * 10 ^ exponent ≤ 10 ^ (length : Int) * 10 ^ exponent := by
            exact mul_le_mul_of_nonneg_right upperRat power.le
        _ = 10 ^ ((length : Int) + exponent) := (zpow_add₀ (by norm_num) _ _).symm
        _ ≤ 10 ^ (-401 : Int) := zpow_le_zpow_right₀ (by norm_num) (by omega)
    exact absurd (covers.bottom_lt nonzero) (not_lt.2 short)
  dsimp only
  rw [if_neg notHuge, if_neg notTiny]
  split
  · next nonnegative =>
      have cast : (exponent.toNat : Int) = exponent := Int.toNat_of_nonneg nonnegative
      refine ofRatio_of_covers Nat.one_pos nonzero ?_
      rw [Nat.pow_eq, Nat.cast_mul, Nat.cast_pow, Nat.cast_ofNat, ← zpow_natCast, cast, Nat.cast_one,
        div_one]
      exact covers
  · next negative =>
      have cast : ((-exponent).toNat : Int) = -exponent := Int.toNat_of_nonneg (by omega)
      refine ofRatio_of_covers (Nat.pow_pos (by decide)) nonzero ?_
      rw [Nat.pow_eq, Nat.cast_pow, Nat.cast_ofNat, ← zpow_natCast, cast, zpow_neg, div_inv_eq_mul]
      exact covers

end Decimals

end Double

/-! ### Digits -/

theorem digitsValue_append_zeros (digits : List Char) (count : Nat) :
    digitsValue (digits ++ List.replicate count '0') = digitsValue digits * 10 ^ count := by
  rw [digitsValue, Nat.ofDigitChars_append, Nat.ofDigitChars_replicate_zero, Nat.mul_comm]
  rfl

theorem digitsValue_zeros_append (digits : List Char) (count : Nat) :
    digitsValue (List.replicate count '0' ++ digits) = digitsValue digits := by
  rw [digitsValue, Nat.ofDigitChars_append, Nat.ofDigitChars_replicate_zero]
  rfl

theorem digitsValue_toDigits (number : Nat) : digitsValue (Nat.toDigits 10 number) = number :=
  Nat.ofDigitChars_ten_toDigits

theorem isDigit_toDigits {number : Nat} :
    ∀ character ∈ Nat.toDigits 10 number, character.isDigit = true :=
  fun _ member => Nat.isDigit_of_mem_toDigits (by decide) (by decide) member

/-- The first of some digits counts for its place, the others for what they are without it. -/
theorem digitsValue_cons (digit : Char) (rest : List Char) :
    digitsValue (digit :: rest) = 10 ^ rest.length * (digit.toNat - 48) + digitsValue rest := by
  have zero : '0'.toNat = 48 := rfl
  rw [digitsValue, Nat.ofDigitChars_cons, Nat.ofDigitChars_eq_ofDigitChars_zero, Nat.mul_zero,
    Nat.zero_add, zero]
  rfl

/-- Some digits stand for a number that is less than the power of ten for their length. -/
theorem digitsValue_lt {digits : List Char} (all : ∀ digit ∈ digits, digit.isDigit = true) :
    digitsValue digits < 10 ^ digits.length := by
  induction digits with
  | nil => decide
  | cons digit rest inductionHypothesis =>
      have bounds : 48 ≤ digit.toNat ∧ digit.toNat ≤ 57 :=
        Char.isDigit_iff_toNat.1 (all digit List.mem_cons_self)
      have less := inductionHypothesis fun other member => all other (List.mem_cons_of_mem _ member)
      have first : 10 ^ rest.length * (digit.toNat - 48) ≤ 10 ^ rest.length * 9 :=
        Nat.mul_le_mul_left _ (by omega)
      rw [digitsValue_cons, List.length_cons, Nat.pow_succ]
      omega

/-- A character that does not continue a run of digits. -/
def NoDigitNext (rest : List Char) : Prop :=
  ∀ character ∈ rest.head?, character.isDigit = false

section Runs

variable {digits rest : List Char} (all : ∀ character ∈ digits, character.isDigit = true)
  (ends : NoDigitNext rest)

include all ends

theorem takeWhile_isDigit_append : (digits ++ rest).takeWhile Char.isDigit = digits := by
  rw [List.takeWhile_append_of_pos all]
  cases rest with
  | nil => simp
  | cons next others => simp [ends next rfl]

theorem dropWhile_isDigit_append : (digits ++ rest).dropWhile Char.isDigit = rest := by
  rw [List.dropWhile_append_of_pos all]
  cases rest with
  | nil => simp
  | cons next others => simp [ends next rfl]

end Runs

/-- The only number whose digits start with a zero is zero. -/
theorem head?_toDigits_ne_zero {number : Nat} (positive : 0 < number) :
    (Nat.toDigits 10 number).head? ≠ some '0' := by
  induction number using Nat.strongRecOn with
  | ind number inductionHypothesis =>
      rcases Nat.lt_or_ge number 10 with short | long
      · rw [Nat.toDigits_of_lt_base short]
        have code := Nat.toNat_digitChar_sub_48_of_lt_ten short
        intro zero
        rw [Option.some.inj zero] at code
        exact Nat.ne_of_gt positive code.symm
      · rw [Nat.toDigits_of_base_le (by decide) long, List.head?_append_of_ne_nil _ Nat.toDigits_ne_nil]
        exact inductionHypothesis (number / 10) (by omega) (by omega)

/-! ### The text of a numeral -/

namespace Numeral

/-- The digits before a point: a single zero, or digits that start with another one. -/
def IsWhole (whole : List Char) : Prop :=
  whole = ['0']
    ∨ (whole ≠ [] ∧ whole.head? ≠ some '0' ∧ ∀ character ∈ whole, character.isDigit = true)

/-- The parts of a numeral consist of digits. -/
structure WellFormed (numeral : Numeral) : Prop where
  whole : IsWhole numeral.whole
  fraction : ∀ character ∈ numeral.fraction, character.isDigit = true

/-- The sign in front of a negative numeral. -/
def signText (negative : Bool) : List Char :=
  if negative then ['-'] else []

/-- The point and the digits after it, if there are any. -/
def fractionText : List Char → List Char
  | [] => []
  | first :: rest => '.' :: first :: rest

/-- The exponent with its mark, if there is one. -/
def markedExponent : Option Int → List Char
  | none => []
  | some exponent => 'e' :: Double.exponentText exponent

/-- The text of a numeral. -/
def text (numeral : Numeral) : List Char :=
  signText numeral.negative
    ++ (numeral.whole ++ (fractionText numeral.fraction ++ markedExponent numeral.exponent))

/-- A text that does not continue a numeral. -/
def EndsAt (rest : List Char) : Prop :=
  ∀ character ∈ rest.head?,
    character.isDigit = false ∧ character ≠ '.' ∧ character ≠ 'e' ∧ character ≠ 'E'

theorem EndsAt.noDigitNext {rest : List Char} (ends : EndsAt rest) : NoDigitNext rest :=
  fun character first => (ends character first).1

theorem isWhole_toDigits (number : Nat) : IsWhole (Nat.toDigits 10 number) := by
  rcases Nat.eq_zero_or_pos number with rfl | positive
  · exact .inl rfl
  · exact .inr ⟨Nat.toDigits_ne_nil, head?_toDigits_ne_zero positive, isDigit_toDigits⟩

theorem takeWhole_append {whole rest : List Char} (isWhole : IsWhole whole)
    (ends : NoDigitNext rest) : takeWhole (whole ++ rest) = some (whole, rest) := by
  rcases isWhole with rfl | ⟨nonempty, noZero, digits⟩
  · rfl
  · cases whole with
    | nil => exact absurd rfl nonempty
    | cons first others =>
        have restDigits : ∀ character ∈ others, character.isDigit = true :=
          fun character member => digits character (List.mem_cons_of_mem _ member)
        have firstDigit := digits first List.mem_cons_self
        rw [List.cons_append, takeWhole]
        · rw [if_pos firstDigit, takeWhile_isDigit_append restDigits ends,
            dropWhile_isDigit_append restDigits ends]
        · intro zero
          subst zero
          exact noZero rfl

theorem takeFraction_append {fraction rest : List Char}
    (digits : ∀ character ∈ fraction, character.isDigit = true) (ends : NoDigitNext rest)
    (noPoint : rest.head? ≠ some '.') :
    takeFraction (fractionText fraction ++ rest) = (fraction, rest) := by
  cases fraction with
  | nil =>
      rw [fractionText, List.nil_append]
      unfold takeFraction
      split
      · exact absurd rfl noPoint
      · rfl
  | cons first others =>
      have restDigits : ∀ character ∈ others, character.isDigit = true :=
        fun character member => digits character (List.mem_cons_of_mem _ member)
      rw [fractionText, List.cons_append, List.cons_append, takeFraction,
        if_pos (digits first List.mem_cons_self), takeWhile_isDigit_append restDigits ends,
        dropWhile_isDigit_append restDigits ends]

/-- The digits of an exponent, at least two of them. -/
private theorem exists_exponentDigits (exponent : Int) :
    ∃ digits, digits ≠ [] ∧ (∀ character ∈ digits, character.isDigit = true)
      ∧ digitsValue digits = exponent.natAbs
      ∧ Double.exponentText exponent = (if exponent < 0 then '-' else '+') :: digits := by
  unfold Double.exponentText
  by_cases short : (Nat.toDigits 10 exponent.natAbs).length < 2
  · simp only [if_pos short]
    refine ⟨'0' :: Nat.toDigits 10 exponent.natAbs, List.cons_ne_nil _ _, ?_, ?_, rfl⟩
    · intro character member
      rcases List.mem_cons.1 member with rfl | later
      · rfl
      · exact isDigit_toDigits character later
    · exact (digitsValue_zeros_append _ 1).trans (digitsValue_toDigits _)
  · simp only [if_neg short]
    exact ⟨_, Nat.toDigits_ne_nil, isDigit_toDigits, digitsValue_toDigits _, rfl⟩

theorem takeExponent_append (exponent : Int) {rest : List Char} (ends : NoDigitNext rest) :
    takeExponent ('e' :: Double.exponentText exponent ++ rest) = (some exponent, rest) := by
  obtain ⟨digits, nonempty, all, value, written⟩ := exists_exponentDigits exponent
  have sign : takeExponentSign ((if exponent < 0 then '-' else '+') :: (digits ++ rest)) =
      (decide (exponent < 0), digits ++ rest) := by
    split
    · next negative => rw [takeExponentSign, decide_eq_true negative]
    · next positive => rw [takeExponentSign, decide_eq_false positive]
  have taken : (digits.isEmpty) = false := by
    cases digits with
    | nil => exact absurd rfl nonempty
    | cons first others => rfl
  rw [written, List.cons_append, List.cons_append, takeExponent, if_pos (.inl rfl)]
  simp only [sign, takeWhile_isDigit_append all ends, dropWhile_isDigit_append all ends, value, taken,
    Bool.false_eq_true, if_false, decide_eq_true_eq]
  split
  · next negative =>
      have magnitude : -(exponent.natAbs : Int) = exponent := by omega
      rw [magnitude]
  · next positive =>
      have magnitude : (exponent.natAbs : Int) = exponent := by omega
      rw [magnitude]

theorem takeExponent_markedExponent (exponent : Option Int) {rest : List Char} (ends : EndsAt rest) :
    takeExponent (markedExponent exponent ++ rest) = (exponent, rest) := by
  cases exponent with
  | some exponent => exact takeExponent_append exponent ends.noDigitNext
  | none =>
      cases rest with
      | nil => rfl
      | cons next others =>
          obtain ⟨_, _, noLower, noUpper⟩ := ends next rfl
          rw [markedExponent, List.nil_append, takeExponent, if_neg]
          exact not_or.2 ⟨noLower, noUpper⟩

/-- No digit and no point stands where an exponent or the end of the numeral is due. -/
private theorem head?_markedExponent (exponent : Option Int) {rest : List Char} (ends : EndsAt rest) :
    NoDigitNext (markedExponent exponent ++ rest)
      ∧ (markedExponent exponent ++ rest).head? ≠ some '.' := by
  cases exponent with
  | none => exact ⟨ends.noDigitNext, fun point => (ends '.' point).2.1 rfl⟩
  | some exponent =>
      refine ⟨fun character first => ?_, fun point => ?_⟩
      · obtain rfl := Option.some.inj first
        rfl
      · exact absurd (Option.some.inj point) (by decide)

private theorem noDigitNext_fractionText (fraction : List Char) {rest : List Char}
    (noDigit : NoDigitNext rest) : NoDigitNext (fractionText fraction ++ rest) := by
  cases fraction with
  | nil => exact noDigit
  | cons first others =>
      intro character next
      obtain rfl := Option.some.inj next
      rfl

theorem takeSign_append {negative : Bool} {whole rest : List Char} (isWhole : IsWhole whole) :
    takeSign (signText negative ++ (whole ++ rest)) = (negative, whole ++ rest) := by
  cases negative with
  | true => rfl
  | false =>
      rw [signText, if_neg Bool.false_ne_true, List.nil_append]
      unfold takeSign
      split
      · next others signed =>
          rcases isWhole with rfl | ⟨nonempty, _, digits⟩
          · cases signed
          · cases whole with
            | nil => exact absurd rfl nonempty
            | cons first _ =>
                obtain ⟨rfl, _⟩ := List.cons.inj signed
                exact absurd (digits '-' List.mem_cons_self) (by decide)
      · rfl

/-- A numeral is read back from its text, whatever follows that does not continue it. -/
theorem read_text_append {numeral : Numeral} (wellFormed : numeral.WellFormed) {rest : List Char}
    (ends : EndsAt rest) : read (numeral.text ++ rest) = some (numeral, rest) := by
  obtain ⟨noDigit, noPoint⟩ := head?_markedExponent numeral.exponent ends
  have noDigitAfterWhole := noDigitNext_fractionText numeral.fraction noDigit
  unfold read text
  simp only [List.append_assoc, takeSign_append wellFormed.whole,
    takeWhole_append wellFormed.whole noDigitAfterWhole,
    takeFraction_append wellFormed.fraction noDigit noPoint,
    takeExponent_markedExponent numeral.exponent ends]

theorem exists_digit_of_isWhole {whole : List Char} (isWhole : IsWhole whole) :
    ∃ first others, whole = first :: others ∧ first.isDigit = true := by
  rcases isWhole with rfl | ⟨nonempty, _, digits⟩
  · exact ⟨'0', [], rfl, rfl⟩
  · cases whole with
    | nil => exact absurd rfl nonempty
    | cons first others => exact ⟨first, others, rfl, digits first List.mem_cons_self⟩

/-- The text of a numeral starts with a digit, or with a minus sign that a digit follows. -/
theorem exists_text_eq_cons {numeral : Numeral} (wellFormed : numeral.WellFormed) :
    ∃ digit others, digit.isDigit = true
      ∧ (numeral.text = digit :: others ∨ numeral.text = '-' :: digit :: others) := by
  obtain ⟨digit, others, whole, isDigit⟩ := exists_digit_of_isWhole wellFormed.whole
  refine ⟨digit, others ++ (fractionText numeral.fraction ++ markedExponent numeral.exponent),
    isDigit, ?_⟩
  rw [text, whole]
  cases numeral.negative with
  | false => exact .inl rfl
  | true => exact .inr rfl

/-! ### What integers are written as -/

/-- The numeral of an integer. -/
def ofInteger (value : Int) : Numeral :=
  ⟨decide (value < 0), Nat.toDigits 10 value.natAbs, [], none⟩

theorem wellFormed_ofInteger (value : Int) : (ofInteger value).WellFormed :=
  ⟨isWhole_toDigits _, fun _ member => absurd member List.not_mem_nil⟩

theorem text_ofInteger (value : Int) : (ofInteger value).text = integerText value := by
  unfold text integerText ofInteger signText
  by_cases negative : value < 0 <;> simp [negative, fractionText, markedExponent]

theorem integer_ofInteger (value : Int) : (ofInteger value).integer = value := by
  simp only [integer, ofInteger, digitsValue_toDigits, decide_eq_true_eq]
  split <;> omega

/-! ### What doubles are written as -/

/-- The magnitude of a numeral. -/
def worth (numeral : Numeral) : ℚ :=
  digitsValue (numeral.whole ++ numeral.fraction)
    * 10 ^ (numeral.exponent.getD 0 - (numeral.fraction.length : Int))

theorem double_of_covers {numeral : Numeral} {value : Double.Finite} (nonzero : value.significand ≠ 0)
    (sign : numeral.negative = value.negative) (covers : value.Covers numeral.worth) :
    numeral.double = .finite value := by
  rw [double, sign]
  exact Double.ofDecimal_of_covers nonzero covers

/-- What it takes to be the text of digits whose first one stands for `10 ^ place`. -/
structure LaysOut (numeral : Numeral) (digits : List Char) (place : Int) : Prop where
  wellFormed : numeral.WellFormed
  isInteger : numeral.isInteger = false
  positive : numeral.negative = false
  text_eq : numeral.text = Double.layout digits place
  worth_eq : numeral.worth = digitsValue digits * 10 ^ (place + 1 - (digits.length : Int))

section Layout

/-- Reading the digits as one run, the last of them stands at the place of the run's end. -/
private theorem worth_eq_of_run {numeral : Numeral} {digits : List Char} {place : Int} (zeros : Nat)
    (run : numeral.whole ++ numeral.fraction = digits ++ List.replicate zeros '0')
    (end_eq : numeral.exponent.getD 0 - (numeral.fraction.length : Int) + zeros =
      place + 1 - (digits.length : Int)) :
    numeral.worth = digitsValue digits * 10 ^ (place + 1 - (digits.length : Int)) := by
  rw [worth, run, digitsValue_append_zeros, Nat.cast_mul, Nat.cast_pow, Nat.cast_ofNat, mul_assoc,
    ← zpow_natCast, ← zpow_add₀ (by norm_num), add_comm, end_eq]

variable {digits : List Char} (nonempty : digits ≠ []) (noZero : digits.head? ≠ some '0')
  (all : ∀ character ∈ digits, character.isDigit = true) {place : Int}

include nonempty noZero all

omit noZero in
private theorem exists_laysOut_below_point (positional : -4 ≤ place ∧ place < 16)
    (below : place < 0) : ∃ numeral, LaysOut numeral digits place := by
  refine ⟨⟨false, ['0'], List.replicate ((-place).toNat - 1) '0' ++ digits, none⟩, ?_, ?_, rfl, ?_, ?_⟩
  · refine ⟨.inl rfl, fun character member => ?_⟩
    rcases List.mem_append.1 member with zero | digit
    · rw [List.eq_of_mem_replicate zero]
      rfl
    · exact all character digit
  · simp [isInteger, nonempty]
  · unfold Double.layout
    rw [if_pos positional, if_pos below]
    cases fraction : List.replicate ((-place).toNat - 1) '0' ++ digits with
    | nil => simp [nonempty] at fraction
    | cons first others => simp [text, signText, fractionText, markedExponent]
  · have value : digitsValue (['0'] ++ (List.replicate ((-place).toNat - 1) '0' ++ digits)) =
        digitsValue digits :=
      (digitsValue_zeros_append _ 1).trans (digitsValue_zeros_append _ _)
    rw [worth, value, Option.getD_none, List.length_append, List.length_replicate]
    congr 2
    omega

private theorem exists_laysOut_before_point (positional : -4 ≤ place ∧ place < 16)
    (atLeastOne : 0 ≤ place) (short : digits.length ≤ place.toNat + 1) :
    ∃ numeral, LaysOut numeral digits place := by
  have length : (digits ++ List.replicate (place.toNat + 1 - digits.length) '0').length =
      place.toNat + 1 := by
    rw [List.length_append, List.length_replicate]
    omega
  refine ⟨⟨false, digits ++ List.replicate (place.toNat + 1 - digits.length) '0', ['0'], none⟩,
    ?_, rfl, rfl, ?_, ?_⟩
  · refine ⟨.inr ⟨by simp [nonempty], ?_, ?_⟩, by simp⟩
    · rwa [List.head?_append_of_ne_nil _ nonempty]
    · intro character member
      rcases List.mem_append.1 member with digit | zero
      · exact all character digit
      · rw [List.eq_of_mem_replicate zero]
        rfl
  · unfold Double.layout
    rw [if_pos positional, if_neg (not_lt.2 atLeastOne)]
    dsimp only
    rw [List.take_of_length_le length.le, List.drop_of_length_le length.le]
    simp [text, signText, fractionText, markedExponent]
  · refine worth_eq_of_run (place.toNat + 1 - digits.length + 1) ?_ ?_
    · rw [List.replicate_succ', List.append_assoc]
    · rw [Option.getD_none, List.length_singleton]
      omega

private theorem exists_laysOut_around_point (positional : -4 ≤ place ∧ place < 16)
    (atLeastOne : 0 ≤ place) (long : place.toNat + 1 < digits.length) :
    ∃ numeral, LaysOut numeral digits place := by
  have fraction : digits.drop (place.toNat + 1) ≠ [] := by
    simp only [ne_eq, List.drop_eq_nil_iff]
    omega
  refine ⟨⟨false, digits.take (place.toNat + 1), digits.drop (place.toNat + 1), none⟩,
    ?_, ?_, rfl, ?_, ?_⟩
  · refine ⟨.inr ⟨by simp [nonempty], ?_, ?_⟩, ?_⟩
    · rwa [List.head?_take, if_neg (Nat.succ_ne_zero _)]
    · exact fun character member => all character (List.mem_of_mem_take member)
    · exact fun character member => all character (List.mem_of_mem_drop member)
  · simp [isInteger, fraction]
  · unfold Double.layout
    rw [if_pos positional, if_neg (not_lt.2 atLeastOne)]
    dsimp only
    rw [Nat.sub_eq_zero_of_le long.le, List.replicate_zero, List.append_nil]
    cases dropped : digits.drop (place.toNat + 1) with
    | nil => exact absurd dropped fraction
    | cons first others => simp [text, signText, fractionText, markedExponent]
  · refine worth_eq_of_run 0 ?_ ?_
    · rw [List.take_append_drop, List.replicate_zero, List.append_nil]
    · rw [Option.getD_none, List.length_drop]
      omega

private theorem exists_laysOut_scientific (scientific : ¬(-4 ≤ place ∧ place < 16)) :
    ∃ numeral, LaysOut numeral digits place := by
  cases digits with
  | nil => exact absurd rfl nonempty
  | cons first others =>
      have isWhole : IsWhole [first] := by
        refine .inr ⟨List.cons_ne_nil _ _, noZero, fun character member => ?_⟩
        rw [List.mem_singleton.1 member]
        exact all first List.mem_cons_self
      refine ⟨⟨false, [first], others, some place⟩, ⟨isWhole, ?_⟩, ?_, rfl, ?_, ?_⟩
      · exact fun character member => all character (List.mem_cons_of_mem _ member)
      · simp [isInteger]
      · unfold Double.layout
        rw [if_neg scientific]
        cases others <;> simp [text, signText, fractionText, markedExponent]
      · refine worth_eq_of_run 0 (by simp) ?_
        dsimp only
        rw [Option.getD_some, List.length_cons]
        omega

/-- Digits that do not start with a zero are laid out as a numeral worth as much. -/
theorem exists_laysOut (place : Int) : ∃ numeral, LaysOut numeral digits place := by
  by_cases positional : -4 ≤ place ∧ place < 16
  · rcases lt_or_ge place 0 with below | atLeastOne
    · exact exists_laysOut_below_point nonempty all positional below
    · rcases Nat.lt_or_ge (place.toNat + 1) digits.length with long | short
      · exact exists_laysOut_around_point nonempty noZero all positional atLeastOne long
      · exact exists_laysOut_before_point nonempty noZero all positional atLeastOne short
  · exact exists_laysOut_scientific nonempty noZero all positional

end Layout

/-! ### Zeros at the end -/

theorem append_trimZeros (digits : List Char) :
    ∃ zeros, Double.trimZeros digits ++ List.replicate zeros '0' = digits := by
  refine ⟨(digits.reverse.takeWhile (· == '0')).length, ?_⟩
  have zeros : digits.reverse.takeWhile (· == '0') =
      List.replicate (digits.reverse.takeWhile (· == '0')).length '0' := by
    refine List.eq_replicate_iff.2 ⟨rfl, fun character member => ?_⟩
    simpa using List.all_eq_true.1 List.all_takeWhile character member
  rw [Double.trimZeros, ← List.reverse_replicate, ← zeros, ← List.reverse_append,
    List.takeWhile_append_dropWhile, List.reverse_reverse]

private theorem exists_numeral_of_zero {value : Double.Finite} (zero : value.significand = 0) :
    ∃ numeral : Numeral, numeral.WellFormed ∧ numeral.isInteger = false
      ∧ numeral.text = value.text ∧ numeral.double = .finite value := by
  refine ⟨⟨value.negative, ['0'], ['0'], none⟩, ⟨.inl rfl, by simp⟩, rfl, ?_, ?_⟩
  · simp only [text, Double.Finite.text, zero, if_true, signText, fractionText, markedExponent]
    cases value.negative <;> rfl
  · obtain ⟨negative, significand, exponent, canonical⟩ := value
    subst zero
    obtain rfl : exponent = -1074 := canonical.2.2.2.resolve_left (by decide)
    rfl

/-- A finite double is written as a numeral that is read as this double, and that is no integer. -/
theorem exists_numeral (value : Double.Finite) :
    ∃ numeral : Numeral, numeral.WellFormed ∧ numeral.isInteger = false
      ∧ numeral.text = value.text ∧ numeral.double = .finite value := by
  by_cases zero : value.significand = 0
  · exact exists_numeral_of_zero zero
  have covers := Double.Finite.covers_shortest zero
  have positive := Nat.pos_of_ne_zero (Double.Finite.shortest_digits_ne_zero zero)
  have all := @isDigit_toDigits value.shortest.digits
  have noZero := head?_toDigits_ne_zero positive
  have valueOfDigits := digitsValue_toDigits value.shortest.digits
  obtain ⟨zeros, trimmed⟩ := append_trimZeros (Nat.toDigits 10 value.shortest.digits)
  have textEq : value.text = signText value.negative ++
      Double.layout (Double.trimZeros (Nat.toDigits 10 value.shortest.digits))
        (value.shortest.exponent + ((Nat.toDigits 10 value.shortest.digits).length : Int) - 1) := by
    simp only [Double.Finite.text, if_neg zero]
    cases value.negative <;> rfl
  rw [textEq]
  generalize Double.trimZeros (Nat.toDigits 10 value.shortest.digits) = digits at trimmed ⊢
  rw [← trimmed] at all noZero valueOfDigits ⊢
  rw [digitsValue_append_zeros] at valueOfDigits
  have nonempty : digits ≠ [] := by
    rintro rfl
    rw [← valueOfDigits] at positive
    simp [digitsValue] at positive
  rw [List.head?_append_of_ne_nil _ nonempty] at noZero
  have digitsAll : ∀ character ∈ digits, character.isDigit = true :=
    fun character member => all character (List.mem_append_left _ member)
  obtain ⟨numeral, laidOut⟩ := exists_laysOut nonempty noZero digitsAll
    (value.shortest.exponent + ((digits ++ List.replicate zeros '0').length : Int) - 1)
  refine ⟨{ numeral with negative := value.negative },
    ⟨laidOut.wellFormed.whole, laidOut.wellFormed.fraction⟩, laidOut.isInteger, ?_, ?_⟩
  · rw [← laidOut.text_eq, text, text, laidOut.positive]
    rfl
  · refine double_of_covers zero rfl ?_
    have worthEq := laidOut.worth_eq
    have place : value.shortest.exponent + ((digits ++ List.replicate zeros '0').length : Int) - 1 + 1
        - (digits.length : Int) = zeros + value.shortest.exponent := by
      rw [List.length_append, List.length_replicate]
      omega
    rw [place, zpow_add₀ (by norm_num), ← mul_assoc, zpow_natCast] at worthEq
    have worthCovers : value.Covers numeral.worth := by
      rw [worthEq]
      have digitsRat : (value.shortest.digits : ℚ) = digitsValue digits * 10 ^ zeros := by
        exact_mod_cast valueOfDigits.symm
      rw [← digitsRat]
      exact covers
    exact worthCovers

end Numeral

end DocumentStore
