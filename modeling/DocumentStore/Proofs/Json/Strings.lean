import DocumentStore.Json.Reader
import DocumentStore.Json.Writer
import DocumentStore.Proofs.Digest.Encoding

/-!
Contract: the text of a string is read back as this string.

Owns: the code units of a character, their escapes, and the joining of surrogates.

Does not own: what a string stands for.

Reading undoes writing in two stages: the units that are read are those of the characters,
and units of whole characters are joined to these characters.
-/

set_option autoImplicit false

namespace DocumentStore.Json

/-! ### Code units -/

/-- The UTF-16 code units of a character. -/
def codeUnits (character : Char) : List Nat :=
  if character.toNat < 0x10000 then [character.toNat]
  else
    [0xd800 + (character.toNat - 0x10000) / 0x400, 0xdc00 + (character.toNat - 0x10000) % 0x400]

/-- A character is not a surrogate, and its code point ends at `0x10ffff`. -/
private theorem toNat_bounds (character : Char) :
    (character.toNat < 0xd800 ∨ 0xdfff < character.toNat) ∧ character.toNat < 0x110000 := by
  have valid : character.toNat.isValidChar := character.valid
  rcases valid with low | ⟨high, bound⟩
  · exact ⟨.inl low, by omega⟩
  · exact ⟨.inr high, bound⟩

theorem joinSurrogates_codeUnits (character : Char) (units : List Nat) :
    joinSurrogates (codeUnits character ++ units) = character :: joinSurrogates units := by
  obtain ⟨noSurrogate, bound⟩ := toNat_bounds character
  unfold codeUnits
  split
  · have single : (if character.toNat.isValidChar then Char.ofNat character.toNat else '\ufffd') =
        character := by
      rw [if_pos (show character.toNat.isValidChar from character.valid), Char.ofNat_toNat]
    cases units with
    | nil =>
        rw [List.append_nil]
        simp only [joinSurrogates, single]
    | cons next rest =>
        rw [List.singleton_append, joinSurrogates, if_neg (by omega), single]
  · rw [List.cons_append, List.singleton_append, joinSurrogates, if_pos (by omega)]
    have code : 0x10000 + (0xd800 + (character.toNat - 0x10000) / 0x400 - 0xd800) * 0x400
        + (0xdc00 + (character.toNat - 0x10000) % 0x400 - 0xdc00) = character.toNat := by
      omega
    rw [code, Char.ofNat_toNat]

theorem joinSurrogates_flatMap_codeUnits (characters : List Char) :
    joinSurrogates (characters.flatMap codeUnits) = characters := by
  induction characters with
  | nil => rfl
  | cons character rest inductionHypothesis =>
      rw [List.flatMap_cons, joinSurrogates_codeUnits, inductionHypothesis]

/-! ### Escapes -/

theorem hexUnit?_hexDigits {unit : Nat} (bound : unit < 0x10000) :
    ∃ first second third fourth, Text.hexDigits 4 unit = [first, second, third, fourth]
      ∧ hexUnit? first second third fourth = some unit := by
  refine ⟨_, _, _, _, rfl, ?_⟩
  simp only [hexUnit?, Digest.hexValue?_digitChar (Nat.mod_lt _ (by decide : 0 < 16)),
    Option.bind_eq_bind, Option.bind_some]
  congr 1
  omega

section Units

variable (opening : List Char) {tail : List Char}

/-- The units read after some more units. -/
private def prepend (units : List Nat) (read : Except Stop (List Nat × List Char)) :
    Except Stop (List Nat × List Char) :=
  read.map fun (others, after) => (units ++ others, after)

private theorem readUnits_unitEscape {unit : Nat} (bound : unit < 0x10000) (more : tail ≠ []) :
    readUnits opening (unitEscape unit ++ tail) = prepend [unit] (readUnits opening tail) := by
  obtain ⟨first, second, third, fourth, digits, value⟩ := hexUnit?_hexDigits bound
  cases tail with
  | nil => exact absurd rfl more
  | cons next rest =>
      rw [unitEscape, digits]
      show readUnits opening ('\\' :: 'u' :: first :: second :: third :: fourth :: next :: rest) = _
      rw [readUnits]
      · rfl
      · exact value

private theorem readUnits_letter {letter : Char} {code : Nat} (escaped : escaped? letter = some code) :
    readUnits opening ('\\' :: letter :: tail) = prepend [code] (readUnits opening tail) := by
  have notUnit : letter ≠ 'u' := by
    rintro rfl
    cases escaped
  rw [readUnits]
  · rw [escaped]
    rfl
  · intro first second third fourth rest same
    exact absurd same notUnit
  · exact notUnit

private theorem readUnits_plain {character : Char} (noMark : character ≠ '"')
    (noEscape : character ≠ '\\') (printable : 0x20 ≤ character.toNat) :
    readUnits opening (character :: tail) = prepend [character.toNat] (readUnits opening tail) := by
  rw [readUnits, if_neg (by omega)]
  · rfl
  · exact noMark
  · exact fun escape _ => noEscape escape
  · exact fun _ _ _ _ _ escape _ => noEscape escape
  · exact fun _ escape _ => noEscape escape
  · exact fun _ _ escape _ => noEscape escape

private theorem prepend_append (units others : List Nat)
    (read : Except Stop (List Nat × List Char)) :
    prepend (units ++ others) read = prepend units (prepend others read) := by
  cases read with
  | error stop => rfl
  | ok result => simp [prepend, Except.map]

/-- A written character is read as its code units. -/
private theorem readUnits_writeCharacter (character : Char) (more : tail ≠ []) :
    readUnits opening (writeCharacter character ++ tail) =
      prepend (codeUnits character) (readUnits opening tail) := by
  obtain ⟨_, bound⟩ := toNat_bounds character
  have single : character.toNat < 0x10000 → codeUnits character = [character.toNat] := by
    intro short
    rw [codeUnits, if_pos short]
  unfold writeCharacter
  dsimp only
  split
  · next mark =>
      rcases mark with rfl | rfl <;> exact readUnits_letter opening rfl
  · next noMark =>
      split
      · next line => subst line; exact readUnits_letter opening rfl
      split
      · next return_ => subst return_; exact readUnits_letter opening rfl
      split
      · next tab => subst tab; exact readUnits_letter opening rfl
      split
      · next backspace =>
          rw [single (by omega), backspace]
          exact readUnits_letter opening rfl
      split
      · next feed =>
          rw [single (by omega), feed]
          exact readUnits_letter opening rfl
      split
      · next printable =>
          rw [single (by omega)]
          exact readUnits_plain opening (fun mark => noMark (.inl mark))
            (fun escape => noMark (.inr escape)) printable.1
      split
      · next short =>
          rw [single short]
          exact readUnits_unitEscape opening short more
      · next long =>
          have escapeMore : unitEscape (0xdc00 + (character.toNat - 0x10000) % 0x400) ++ tail ≠ [] :=
            List.cons_ne_nil _ _
          rw [codeUnits, if_neg long, List.append_assoc,
            readUnits_unitEscape opening (by omega) escapeMore,
            readUnits_unitEscape opening (by omega) more, ← prepend_append]
          rfl

private theorem readUnits_flatMap_writeCharacter (characters rest : List Char) :
    readUnits opening (characters.flatMap writeCharacter ++ '"' :: rest) =
      .ok (characters.flatMap codeUnits, rest) := by
  induction characters with
  | nil => simp [readUnits]
  | cons character others inductionHypothesis =>
      have more : others.flatMap writeCharacter ++ '"' :: rest ≠ [] := by simp
      rw [List.flatMap_cons, List.append_assoc, readUnits_writeCharacter opening character more,
        inductionHypothesis]
      rfl

end Units

/-- A string is read back from its text. -/
theorem readText_writeText (text : String) (rest : List Char) :
    readText (text.toList.flatMap writeCharacter ++ '"' :: rest) = .ok (text, rest) := by
  rw [readText, readUnits_flatMap_writeCharacter]
  simp only [Except.map, joinSurrogates_flatMap_codeUnits, String.ofList_toList]

end DocumentStore.Json
