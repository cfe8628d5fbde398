import DocumentStore.Proofs.Number.Truncation
import DocumentStore.Proofs.Workspace.Getters

/-!
Contract: the numeric getters agree on what a stored number is.

Owns: the quantity that a stored boolean, integer or double stands for, and what each numeric getter
gives of it.

Does not own: the getters of values that are no numbers, and the doubles of integers of more than 53
bits.

A boolean stands for 0 or 1, and not-a-number for no quantity at all. No getter rounds, except that
an integer of too many bits has no double of its own value.
-/

set_option autoImplicit false

namespace DocumentStore

/-! ### Quantities of values -/

namespace Value

/-- The quantity that a number stands for; a boolean is 0 or 1. -/
def quantity? : Value → Option Quantity
  | boolean truth => some (.exact truth.toInt)
  | integer value => some (.exact value)
  | double value => value.quantity?
  | _ => none

/-- A number is finite, and this is its exact value. -/
def Measures (value : Value) (exact : ℚ) : Prop :=
  value.quantity? = some (.exact exact)

variable {value : Value}

theorem quantity?_asNumber (numeric : value.IsNumeric) :
    value.asNumber.quantity? = value.quantity? := by
  rcases numeric with ⟨truth, rfl⟩ | ⟨whole, rfl⟩ | ⟨held, rfl⟩ <;> rfl

/-- A number is given as it is, except that a boolean becomes an integer. -/
theorem asNumber_value (numeric : value.IsNumeric) (other : ∀ truth, value ≠ .boolean truth) :
    value.asNumber.value = value := by
  rcases numeric with ⟨truth, rfl⟩ | ⟨whole, rfl⟩ | ⟨held, rfl⟩
  · exact absurd rfl (other truth)
  · rfl
  · rfl

/-- A value with an exact value is a boolean, an integer, or a finite double. -/
theorem Measures.cases {exact : ℚ} (measures : value.Measures exact) :
    (∃ truth : Bool, value = .boolean truth ∧ exact = truth.toInt)
      ∨ (∃ whole : Int, value = .integer whole ∧ exact = whole)
      ∨ ∃ held : Double.Finite, value = .double (.finite held) ∧ exact = held.rational := by
  unfold Measures quantity? at measures
  split at measures
  · next truth => exact .inl ⟨truth, rfl, (Quantity.exact.inj (Option.some.inj measures)).symm⟩
  · next whole =>
      exact .inr (.inl ⟨whole, rfl, (Quantity.exact.inj (Option.some.inj measures)).symm⟩)
  · next held =>
      cases held with
      | finite held =>
          exact .inr (.inr ⟨held, rfl, (Quantity.exact.inj (Option.some.inj measures)).symm⟩)
      | nan | infinite => cases measures
  · cases measures

theorem asInteger_of_measures {exact : ℚ} (measures : value.Measures exact) :
    value.asInteger = truncation exact := by
  rcases measures.cases with ⟨truth, rfl, rfl⟩ | ⟨whole, rfl, rfl⟩ | ⟨held, rfl, rfl⟩
  · exact (truncation_intCast truth.toInt).symm
  · exact (truncation_intCast whole).symm
  · exact held.truncated_eq

/-- Not-a-number and the infinities become zero. -/
theorem asInteger_of_not_measures (other : ∀ exact, ¬value.Measures exact) : value.asInteger = 0 := by
  match value with
  | .boolean truth => exact absurd rfl (other truth.toInt)
  | .integer whole => exact absurd rfl (other whole)
  | .double (.finite held) => exact absurd rfl (other held.rational)
  | .double .nan | .double (.infinite _) => rfl
  | .null | .text _ | .bytes _ | .moment _ | .cell _ => rfl

/-- A number is true unless it is zero. -/
theorem asTruth_iff (numeric : value.IsNumeric) : value.asTruth = true ↔ ¬value.Measures 0 := by
  rcases numeric with ⟨truth, rfl⟩ | ⟨whole, rfl⟩ | ⟨held, rfl⟩
  · cases truth <;> simp [asTruth, Measures, quantity?]
  · simp [asTruth, Measures, quantity?]
  · cases held with
    | finite held =>
        simp [asTruth, Measures, quantity?, Double.isZero, Double.quantity?,
          Double.Finite.rational_eq_zero_iff]
    | nan | infinite => simp [asTruth, Measures, quantity?, Double.isZero, Double.quantity?]

/-- An integer of at most 53 bits has a double of its own value, in whatever form it is stored. -/
theorem exists_asDouble {whole : Int} (measures : value.Measures whole)
    (small : whole.natAbs ≤ 2 ^ 53) :
    ∃ given, value.asDouble = .ok given ∧ (double given).Measures whole := by
  obtain ⟨rounded, rounds, exact⟩ := Double.exists_ofInt? small
  rcases measures.cases with ⟨truth, rfl, same⟩ | ⟨stored, rfl, same⟩ | ⟨held, rfl, _⟩
  · obtain rfl : whole = truth.toInt := Int.cast_injective same
    refine ⟨rounded, ?_, exact⟩
    rw [← Double.ofRatio_of_ofInt? rounds]
    cases truth <;> rfl
  · obtain rfl : whole = stored := Int.cast_injective same
    exact ⟨rounded, by rw [asDouble, rounds], exact⟩
  · exact ⟨.finite held, rfl, measures⟩

end Value

/-! ### Getters -/

namespace Workspace

variable {workspace : Workspace} {number : Nat} {key : String} {value : Value}

/-- A getter gives this of a property, and does nothing else. -/
def Gets [Machine] (workspace : Workspace) (number : Nat) (key method : String) (given : Value) :
    Prop :=
  (Action.callDocument number method [.value (.text key)]).run.run workspace =
    (.ok (some (.value given)), workspace)

/-- The getters of a double. -/
def doubleGetters : List String :=
  ["get_float", "get_double"]

theorem gets_double [Machine] {given : Double} {method : String} (listed : method ∈ doubleGetters)
    (held : (workspace.document number).property workspace.store key = value)
    (made : value.asDouble = .ok given) : workspace.Gets number key method (.double given) := by
  subst held
  have consulted : (Action.consult fun _ =>
      (((workspace.document number).property workspace.store key).asDouble).map
        Value.double).run.run workspace = (.ok (.double given), workspace) :=
    Action.run_consult (by rw [made]; rfl)
  have gives : ((Action.consult fun _ =>
      (((workspace.document number).property workspace.store key).asDouble).map Value.double) >>=
        Action.giveValue).run.run workspace = (.ok (some (.value (.double given))), workspace) := by
    rw [Action.run_bind, consulted]
    rfl
  simp only [doubleGetters, List.mem_cons, List.not_mem_nil, or_false] at listed
  rcases listed with rfl | rfl <;> exact gives

/-- What the numeric getters give of a number: its exact value, the integer it is truncated to,
whether it differs from zero, and a double of its own value. -/
structure CoercesNumber [Machine] (workspace : Workspace) (number : Nat) (key : String)
    (value : Value) : Prop where
  long : ∃ given : Number, workspace.Gets number key "get_long" given.value
    ∧ given.quantity? = value.quantity?
    ∧ ((∀ truth, value ≠ .boolean truth) → given.value = value)
  int : ∃ given, workspace.Gets number key "get_int" (.integer given)
    ∧ (∀ exact, value.Measures exact → given = truncation exact)
    ∧ ((∀ exact, ¬value.Measures exact) → given = 0)
  truth : ∃ given, workspace.Gets number key "get_boolean" (.boolean given)
    ∧ (given = true ↔ ¬value.Measures 0)
  double : ∀ method ∈ doubleGetters,
    (∀ held, value = .double held → workspace.Gets number key method value)
      ∧ ∀ whole : Int, whole.natAbs ≤ 2 ^ 53 → value.Measures whole →
        ∃ given, workspace.Gets number key method (.double given)
          ∧ (Value.double given).Measures whole

theorem coercesNumber [Machine]
    (held : (workspace.document number).property workspace.store key = value)
    (numeric : value.IsNumeric) : workspace.CoercesNumber number key value where
  long := by
    subst held
    exact ⟨_, rfl, Value.quantity?_asNumber numeric, Value.asNumber_value numeric⟩
  int := by
    subst held
    exact ⟨_, rfl, fun _ => Value.asInteger_of_measures, Value.asInteger_of_not_measures⟩
  truth := by
    subst held
    exact ⟨_, rfl, Value.asTruth_iff numeric⟩
  double := by
    intro method listed
    refine ⟨?_, fun whole small measures => ?_⟩
    · rintro double rfl
      exact gets_double listed held rfl
    · obtain ⟨given, made, exact⟩ := Value.exists_asDouble measures small
      exact ⟨given, gets_double listed held made, exact⟩

/-- The numeric getters agree on what a stored number is, and the integers that `get_int` gives are
in the order of the numbers, in whatever documents and under whatever keys these are stored. -/
theorem numbers_are_coerced_coherently [Machine] (workspace : Workspace) (number : Nat)
    (key : String) {value : Value}
    (held : (workspace.document number).property workspace.store key = value)
    (numeric : value.IsNumeric) :
    workspace.CoercesNumber number key value
      ∧ ∀ (other : Nat) (name : String) (left right : ℚ), value.Measures left →
        ((workspace.document other).property workspace.store name).Measures right → left ≤ right →
          ∃ low high, workspace.Gets number key "get_int" (.integer low)
            ∧ workspace.Gets other name "get_int" (.integer high) ∧ low ≤ high := by
  refine ⟨coercesNumber held numeric, fun other name left right measures measuresOther le => ?_⟩
  subst held
  refine ⟨_, _, rfl, rfl, ?_⟩
  rw [Value.asInteger_of_measures measures, Value.asInteger_of_measures measuresOther]
  exact truncation_mono le

/-- Two and a half below zero. -/
def depth : Double.Finite :=
  ⟨true, 5 * 2 ^ 50, -51, by decide⟩

theorem rational_depth : depth.rational = -(5 / 2) := by
  norm_num [Double.Finite.rational, Double.Finite.magnitude, depth]

/-- A document with a depth, and with the greatest integer up to which all have doubles. -/
def soundings : Workspace :=
  { Workspace.start [] with
    store := ⟨#[.object [("depth", .double (.finite depth)), ("limit", .integer (2 ^ 53))]]⟩
    documents := #[⟨true, "soundings", 0, none, 0, none⟩] }

/-- A negative fraction is truncated upwards, and what is greater is truncated to no less. -/
theorem depth_is_coerced_coherently :
    (soundings.document 0).property soundings.store "depth" = .double (.finite depth)
      ∧ (Value.double (.finite depth)).IsNumeric
      ∧ soundings.CoercesNumber 0 "depth" (.double (.finite depth))
      ∧ soundings.Gets 0 "depth" "get_int" (.integer (-2))
      ∧ ∃ low high, soundings.Gets 0 "depth" "get_int" (.integer low)
        ∧ soundings.Gets 0 "limit" "get_int" (.integer high) ∧ low ≤ high := by
  have held : (soundings.document 0).property soundings.store "depth" = .double (.finite depth) := rfl
  have numeric : (Value.double (.finite depth)).IsNumeric := .inr (.inr ⟨_, rfl⟩)
  have measures : (Value.double (.finite depth)).Measures (-(5 / 2)) :=
    congrArg (fun exact => some (Quantity.exact exact)) rational_depth
  have measuresLimit : ((soundings.document 0).property soundings.store "limit").Measures (2 ^ 53) :=
    congrArg (fun exact => some (Quantity.exact exact)) (by norm_num)
  obtain ⟨coerces, ordered⟩ := numbers_are_coerced_coherently soundings 0 "depth" held numeric
  refine ⟨held, numeric, coerces, ?_, ordered 0 "limit" _ _ measures measuresLimit (by norm_num)⟩
  obtain ⟨given, gets, truncated, _⟩ := coerces.int
  have truncation : truncation (-(5 / 2)) = -2 := by
    norm_num [truncation]
  rw [truncated _ measures, truncation] at gets
  exact gets

end Workspace

end DocumentStore
