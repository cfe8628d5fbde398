import DocumentStore.Proofs.Json.RoundTrip

/-!
Contract: the text of a JSON tree is plain ASCII.

Owns: the code points that the escapes, the numerals and the separators are made of.

Does not own: what the text stands for.
-/

set_option autoImplicit false

namespace DocumentStore.Json

/-- Every character is one of the first 128 code points. -/
def Ascii (characters : List Char) : Prop :=
  ∀ character ∈ characters, character.toNat < 0x80

section Lists

variable {character : Char} {first second : List Char}

@[simp] theorem ascii_nil : Ascii [] :=
  fun _ member => absurd member List.not_mem_nil

@[simp] theorem ascii_cons :
    Ascii (character :: first) ↔ character.toNat < 0x80 ∧ Ascii first :=
  List.forall_mem_cons

@[simp] theorem ascii_append : Ascii (first ++ second) ↔ Ascii first ∧ Ascii second :=
  List.forall_mem_append

theorem ascii_of_digits (digits : ∀ character ∈ first, character.isDigit = true) : Ascii first := by
  intro character member
  have bounds : 48 ≤ character.toNat ∧ character.toNat ≤ 57 :=
    Char.isDigit_iff_toNat.1 (digits character member)
  omega

end Lists

/-! ### Strings -/

theorem ascii_hexDigits (width number : Nat) : Ascii (Text.hexDigits width number) := by
  have all : ∀ digit < 16, (Nat.digitChar digit).toNat < 0x80 := by decide
  induction width generalizing number with
  | zero => exact ascii_nil
  | succ width inductionHypothesis =>
      rw [Text.hexDigits, ascii_append, ascii_cons]
      exact ⟨inductionHypothesis _, all _ (Nat.mod_lt _ (by decide)), ascii_nil⟩

theorem ascii_unitEscape (unit : Nat) : Ascii (unitEscape unit) := by
  simp [unitEscape, ascii_hexDigits]

theorem ascii_writeCharacter (character : Char) : Ascii (writeCharacter character) := by
  unfold writeCharacter
  dsimp only
  split
  · next mark => rcases mark with rfl | rfl <;> simp
  iterate 5
    split
    · simp
  split
  · next printable =>
      rw [ascii_cons]
      exact ⟨by omega, ascii_nil⟩
  split
  · exact ascii_unitEscape _
  · exact ascii_append.2 ⟨ascii_unitEscape _, ascii_unitEscape _⟩

theorem ascii_writeText (text : String) : Ascii (writeText text) := by
  have inside : Ascii (text.toList.flatMap writeCharacter) := by
    intro character member
    obtain ⟨original, _, written⟩ := List.mem_flatMap.1 member
    exact ascii_writeCharacter original character written
  simp [writeText, inside]

/-! ### Numbers -/

theorem ascii_exponentText (exponent : Int) : Ascii (Double.exponentText exponent) := by
  have digits := ascii_of_digits (@isDigit_toDigits exponent.natAbs)
  unfold Double.exponentText
  dsimp only
  rw [ascii_cons]
  constructor
  · split <;> simp
  · split <;> simp [digits]

theorem ascii_numeral {numeral : Numeral} (wellFormed : numeral.WellFormed) : Ascii numeral.text := by
  have whole : Ascii numeral.whole := by
    rcases wellFormed.whole with zero | ⟨_, _, digits⟩
    · simp [zero]
    · exact ascii_of_digits digits
  have fraction : Ascii (Numeral.fractionText numeral.fraction) := by
    have digits := ascii_of_digits wellFormed.fraction
    cases given : numeral.fraction with
    | nil => exact ascii_nil
    | cons first rest =>
        rw [given] at digits
        simpa [Numeral.fractionText] using digits
  have exponent : Ascii (Numeral.markedExponent numeral.exponent) := by
    cases numeral.exponent with
    | none => exact ascii_nil
    | some exponent => simp [Numeral.markedExponent, ascii_exponentText]
  have sign : Ascii (Numeral.signText numeral.negative) := by
    cases numeral.negative <;> simp [Numeral.signText]
  simp [Numeral.text, sign, whole, fraction, exponent]

theorem ascii_integerText (value : Int) : Ascii (integerText value) := by
  rw [← Numeral.text_ofInteger]
  exact ascii_numeral (Numeral.wellFormed_ofInteger value)

theorem ascii_double (value : Double) : Ascii (value.text spelling) := by
  cases value with
  | nan => simp [Double.text, spelling]
  | infinite negative => cases negative <;> simp [Double.text, spelling]
  | finite value =>
      obtain ⟨numeral, wellFormed, _, written, _⟩ := Numeral.exists_numeral value
      rw [Double.text, ← written]
      exact ascii_numeral wellFormed

/-! ### Trees -/

mutual

/-- The text of a tree is plain ASCII. -/
theorem ascii_render (json : Json) : Ascii (render json) := by
  match json with
  | .null => simp [render]
  | .boolean true => simp [render]
  | .boolean false => simp [render]
  | .integer value => exact ascii_integerText value
  | .double value => exact ascii_double value
  | .text value => exact ascii_writeText value
  | .array [] => simp [render]
  | .object [] => simp [render]
  | .array (item :: rest) =>
      simpa [render] using ⟨ascii_render item, ascii_renderItems rest⟩
  | .object ((key, value) :: rest) =>
      simpa [render] using ⟨ascii_writeText key, ascii_render value, ascii_renderFields rest⟩

theorem ascii_renderItems (items : List Json) : Ascii (renderItems items) := by
  match items with
  | [] => simp [renderItems]
  | item :: rest =>
      simpa [renderItems] using ⟨ascii_render item, ascii_renderItems rest⟩

theorem ascii_renderFields (fields : List (String × Json)) : Ascii (renderFields fields) := by
  match fields with
  | [] => simp [renderFields]
  | (key, value) :: rest =>
      simpa [renderFields] using
        ⟨ascii_writeText key, ascii_render value, ascii_renderFields rest⟩

end

end DocumentStore.Json
