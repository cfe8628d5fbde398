import DocumentStore.Proofs.Json.Strings
import DocumentStore.Proofs.Number.Numeral

/-!
Contract: the text of a JSON tree is read back as this tree.

Owns: the trees whose integers can be read, the merging of repeated keys, and the reading of
a written tree in front of any text that does not continue a number.

Does not own: which values have a tree.

The induction is on the tree. The budget never runs out because every step of it is paid for
by characters of the text.
-/

set_option autoImplicit false

namespace DocumentStore.Json

/-! ### Trees that can be read -/

mutual

/-- No integer of the tree has too many digits. -/
def Readable : Json → Prop
  | .integer value => digitCount value ≤ digitLimit
  | .array items => ReadableItems items
  | .object fields => ReadableFields fields
  | _ => True

def ReadableItems : List Json → Prop
  | [] => True
  | item :: rest => Readable item ∧ ReadableItems rest

def ReadableFields : List (String × Json) → Prop
  | [] => True
  | (_, value) :: rest => Readable value ∧ ReadableFields rest

end

mutual

/-- The tree with one field for each key of an object: at its first position, with its last
value. -/
def merged : Json → Json
  | .array items => .array (mergedItems items)
  | .object fields => .object (Table.ofEntries (mergedFields fields))
  | scalar => scalar

def mergedItems : List Json → List Json
  | [] => []
  | item :: rest => merged item :: mergedItems rest

def mergedFields : List (String × Json) → List (String × Json)
  | [] => []
  | (key, value) :: rest => (key, merged value) :: mergedFields rest

end

/-! ### Numbers -/

private theorem isDigit_cases {character : Char} (digit : character.isDigit = true) :
    character ∈ ['0', '1', '2', '3', '4', '5', '6', '7', '8', '9'] := by
  have all : ∀ digit < 10,
      Char.ofNat (48 + digit) ∈ ['0', '1', '2', '3', '4', '5', '6', '7', '8', '9'] := by
    decide
  have bounds : 48 ≤ character.toNat ∧ character.toNat ≤ 57 := Char.isDigit_iff_toNat.1 digit
  have member := all (character.toNat - 48) (by omega)
  rwa [show 48 + (character.toNat - 48) = character.toNat by omega, Char.ofNat_toNat] at member

theorem readValue_numeral {numeral : Numeral} (wellFormed : numeral.WellFormed) (budget : Nat)
    (rest : List Char) :
    readValue (budget + 1) (numeral.text ++ rest) = readNumber (numeral.text ++ rest) := by
  obtain ⟨digit, others, isDigit, written | written⟩ := numeral.exists_text_eq_cons wellFormed
  · rw [written]
    have cases := isDigit_cases isDigit
    simp only [List.mem_cons, List.not_mem_nil, or_false] at cases
    rcases cases with rfl | rfl | rfl | rfl | rfl | rfl | rfl | rfl | rfl | rfl <;> rfl
  · rw [written]
    have cases := isDigit_cases isDigit
    simp only [List.mem_cons, List.not_mem_nil, or_false] at cases
    rcases cases with rfl | rfl | rfl | rfl | rfl | rfl | rfl | rfl | rfl | rfl <;> rfl

theorem readValue_integer {value : Int} (readable : digitCount value ≤ digitLimit) (budget : Nat)
    {rest : List Char} (ends : Numeral.EndsAt rest) :
    readValue (budget + 1) (integerText value ++ rest) = .ok (.integer value, rest) := by
  have wellFormed := Numeral.wellFormed_ofInteger value
  have short : ¬digitLimit < (Numeral.ofInteger value).whole.length := Nat.not_lt.2 readable
  rw [← Numeral.text_ofInteger, readValue_numeral wellFormed, readNumber,
    Numeral.read_text_append wellFormed ends]
  have isInteger : (Numeral.ofInteger value).isInteger = true := rfl
  dsimp only
  rw [if_pos isInteger, if_neg short, Numeral.integer_ofInteger]

theorem readValue_double (value : Double) (budget : Nat) {rest : List Char}
    (ends : Numeral.EndsAt rest) :
    readValue (budget + 1) (value.text spelling ++ rest) = .ok (.double value, rest) := by
  cases value with
  | nan => rfl
  | infinite negative => cases negative <;> rfl
  | finite value =>
      obtain ⟨numeral, wellFormed, isInteger, written, double⟩ := Numeral.exists_numeral value
      rw [Double.text, ← written, readValue_numeral wellFormed, readNumber,
        Numeral.read_text_append wellFormed ends]
      dsimp only
      rw [isInteger, if_neg Bool.false_ne_true, double]

/-! ### What a text starts with -/

/-- A character that can start a value. -/
def StartsValue (character : Char) : Prop :=
  isBlank character = false ∧ character ≠ ']' ∧ character ≠ '\ufeff'

instance (character : Char) : Decidable (StartsValue character) := by
  unfold StartsValue
  infer_instance

theorem startsValue_numeral {numeral : Numeral} (wellFormed : numeral.WellFormed) :
    ∃ first others, numeral.text = first :: others ∧ StartsValue first := by
  obtain ⟨digit, others, isDigit, written | written⟩ := numeral.exists_text_eq_cons wellFormed
  · refine ⟨digit, others, written, ?_⟩
    have all : ∀ digit ∈ ['0', '1', '2', '3', '4', '5', '6', '7', '8', '9'], StartsValue digit := by
      simp [StartsValue, isBlank]
    exact all digit (isDigit_cases isDigit)
  · exact ⟨'-', _, written, by decide⟩

/-- The text of a value starts with no blank and with no closing bracket. -/
theorem startsValue_render (json : Json) :
    ∃ first others, render json = first :: others ∧ StartsValue first := by
  cases json with
  | null => exact ⟨'n', _, rfl, by decide⟩
  | boolean value =>
      cases value with
      | true => exact ⟨'t', _, rfl, by decide⟩
      | false => exact ⟨'f', _, rfl, by decide⟩
  | integer value =>
      rw [render, ← Numeral.text_ofInteger]
      exact startsValue_numeral (Numeral.wellFormed_ofInteger value)
  | double value =>
      rw [render]
      cases value with
      | nan => exact ⟨'N', _, rfl, by decide⟩
      | infinite negative =>
          cases negative with
          | true => exact ⟨'-', _, rfl, by decide⟩
          | false => exact ⟨'I', _, rfl, by decide⟩
      | finite value =>
          obtain ⟨numeral, wellFormed, _, written, _⟩ := Numeral.exists_numeral value
          rw [Double.text, ← written]
          exact startsValue_numeral wellFormed
  | text value => exact ⟨'"', _, rfl, by decide⟩
  | array items => cases items <;> exact ⟨'[', _, rfl, by decide⟩
  | object fields =>
      cases fields with
      | nil => exact ⟨'\x7b', _, rfl, by decide⟩
      | cons field rest => exact ⟨'\x7b', _, rfl, by decide⟩

theorem skipBlanks_render_append (json : Json) (rest : List Char) :
    skipBlanks (render json ++ rest) = render json ++ rest := by
  obtain ⟨first, others, written, notBlank, _⟩ := startsValue_render json
  rw [written, List.cons_append, skipBlanks, List.dropWhile_cons, notBlank]
  rfl

theorem skipBlanks_space_render_append (json : Json) (rest : List Char) :
    skipBlanks (' ' :: (render json ++ rest)) = render json ++ rest :=
  skipBlanks_render_append json rest

theorem endsAt_renderItems (items : List Json) (rest : List Char) :
    Numeral.EndsAt (renderItems items ++ rest) := by
  intro character first
  cases items <;> (obtain rfl := Option.some.inj first; decide)

theorem endsAt_renderFields (fields : List (String × Json)) (rest : List Char) :
    Numeral.EndsAt (renderFields fields ++ rest) := by
  intro character first
  cases fields <;> (obtain rfl := Option.some.inj first; decide)

/-! ### Containers -/

theorem readKey_writeText (key : String) (value : Json) (rest : List Char) :
    readKey (writeText key ++ ':' :: ' ' :: (render value ++ rest)) =
      .ok (key, render value ++ rest) := by
  have text := readText_writeText key (':' :: ' ' :: (render value ++ rest))
  rw [writeText, List.cons_append, List.append_assoc, List.singleton_append, readKey, text]
  simp only [bind, Except.bind]
  show Except.ok (key, skipBlanks (' ' :: (render value ++ rest))) = _
  rw [skipBlanks_space_render_append]

section Steps

variable {budget : Nat} {rest : List Char}

private theorem readValue_array {item : Json} {others items : List Json}
    (inner : readItems budget (render item ++ (renderItems others ++ rest)) = .ok (items, rest)) :
    readValue (budget + 1) (render (.array (item :: others)) ++ rest) = .ok (.array items, rest) := by
  obtain ⟨first, more, written, _, noBracket, _⟩ := startsValue_render item
  rw [render, List.cons_append, List.append_assoc, readValue, skipBlanks_render_append]
  split
  · next closed =>
      rw [written] at closed
      exact absurd (List.cons.inj closed).1 noBracket
  · rw [inner]
    rfl

private theorem readValue_object {key : String} {value : Json}
    {others fields : List (String × Json)}
    (inner : readFields budget (writeText key ++ ':' :: ' ' ::
      (render value ++ (renderFields others ++ rest))) = .ok (fields, rest)) :
    readValue (budget + 1) (render (.object ((key, value) :: others)) ++ rest) =
      .ok (.object (Table.ofEntries fields), rest) := by
  have noBlanks : skipBlanks (writeText key ++ ':' :: ' ' ::
      (render value ++ (renderFields others ++ rest))) =
      writeText key ++ ':' :: ' ' :: (render value ++ (renderFields others ++ rest)) := rfl
  rw [render, List.cons_append, List.append_assoc, List.cons_append, List.cons_append,
    List.append_assoc, readValue, noBlanks]
  split
  · next closed => cases closed
  · rw [inner]
    rfl

private theorem readItems_last {item value : Json}
    (first : readValue budget (render item ++ ']' :: rest) = .ok (value, ']' :: rest)) :
    readItems (budget + 1) (render item ++ (renderItems [] ++ rest)) = .ok ([value], rest) := by
  rw [renderItems, List.singleton_append, readItems, first]
  rfl

private theorem readItems_cons {item next value : Json} {more values : List Json}
    (first : readValue budget (render item ++ (renderItems (next :: more) ++ rest)) =
      .ok (value, renderItems (next :: more) ++ rest))
    (others : readItems budget (render next ++ (renderItems more ++ rest)) = .ok (values, rest)) :
    readItems (budget + 1) (render item ++ (renderItems (next :: more) ++ rest)) =
      .ok (value :: values, rest) := by
  rw [readItems, first, renderItems, List.cons_append, List.cons_append, List.append_assoc]
  show Except.map _ (readItems budget
    (skipBlanks (' ' :: (render next ++ (renderItems more ++ rest))))) = _
  rw [skipBlanks_space_render_append, others]
  rfl

private theorem readFields_last {key : String} {written value : Json}
    (first : readValue budget (render written ++ '\x7d' :: rest) = .ok (value, '\x7d' :: rest)) :
    readFields (budget + 1) (writeText key ++ ':' :: ' ' ::
      (render written ++ (renderFields [] ++ rest))) = .ok ([(key, value)], rest) := by
  rw [renderFields, List.singleton_append, readFields, readKey_writeText]
  simp only [bind, Except.bind, first]
  rfl

private theorem readFields_cons {key next : String} {written value nextWritten : Json}
    {more values : List (String × Json)}
    (first : readValue budget (render written ++ (renderFields ((next, nextWritten) :: more) ++ rest)) =
      .ok (value, renderFields ((next, nextWritten) :: more) ++ rest))
    (others : readFields budget (writeText next ++ ':' :: ' ' ::
      (render nextWritten ++ (renderFields more ++ rest))) = .ok (values, rest)) :
    readFields (budget + 1) (writeText key ++ ':' :: ' ' ::
      (render written ++ (renderFields ((next, nextWritten) :: more) ++ rest))) =
      .ok ((key, value) :: values, rest) := by
  rw [readFields, readKey_writeText]
  simp only [bind, Except.bind, first]
  rw [renderFields, List.cons_append, List.cons_append, List.append_assoc, List.cons_append,
    List.cons_append, List.append_assoc]
  show Except.map _ (readFields budget (writeText next ++ ':' :: ' ' ::
    (render nextWritten ++ (renderFields more ++ rest)))) = _
  rw [others]
  rfl

end Steps

theorem exists_budget (json : Json) {budget : Nat} (enough : 2 * (render json).length ≤ budget) :
    ∃ less, budget = less + 1 := by
  obtain ⟨first, others, written, _⟩ := startsValue_render json
  rw [written, List.length_cons] at enough
  exact ⟨budget - 1, by omega⟩

mutual

/-- A value is read back from its text in front of any text that does not continue a number. -/
theorem readValue_render : ∀ (json : Json), json.Readable → ∀ (budget : Nat) (rest : List Char),
    2 * (render json).length ≤ budget → Numeral.EndsAt rest →
      readValue budget (render json ++ rest) = .ok (json.merged, rest)
  | .null, _, budget, rest, enough, _ => by
      obtain ⟨budget, rfl⟩ := exists_budget .null enough
      rfl
  | .boolean value, _, budget, rest, enough, _ => by
      obtain ⟨budget, rfl⟩ := exists_budget (.boolean value) enough
      cases value <;> rfl
  | .integer value, readable, budget, rest, enough, ends => by
      obtain ⟨budget, rfl⟩ := exists_budget (.integer value) enough
      exact readValue_integer readable budget ends
  | .double value, _, budget, rest, enough, ends => by
      obtain ⟨budget, rfl⟩ := exists_budget (.double value) enough
      exact readValue_double value budget ends
  | .text value, _, budget, rest, enough, _ => by
      obtain ⟨budget, rfl⟩ := exists_budget (.text value) enough
      rw [render, writeText, List.cons_append, List.append_assoc, List.singleton_append, readValue,
        readText_writeText]
      rfl
  | .array [], _, budget, rest, enough, _ => by
      obtain ⟨budget, rfl⟩ := exists_budget (.array []) enough
      rfl
  | .object [], _, budget, rest, enough, _ => by
      obtain ⟨budget, rfl⟩ := exists_budget (.object []) enough
      rfl
  | .array (item :: others), readable, budget, rest, enough, _ => by
      obtain ⟨budget, rfl⟩ := exists_budget (.array (item :: others)) enough
      rw [render, List.length_cons, List.length_append] at enough
      exact readValue_array (readItems_render item others readable budget rest (by omega))
  | .object ((key, value) :: others), readable, budget, rest, enough, _ => by
      obtain ⟨budget, rfl⟩ := exists_budget (.object ((key, value) :: others)) enough
      rw [render, List.length_cons, List.length_append, List.length_cons, List.length_cons,
        List.length_append] at enough
      exact readValue_object (readFields_render key value others readable budget rest (by omega))
termination_by json => sizeOf json

/-- Items are read back up to the closing bracket. -/
theorem readItems_render : ∀ (item : Json) (others : List Json), ReadableItems (item :: others) →
    ∀ (budget : Nat) (rest : List Char),
      2 * ((render item).length + (renderItems others).length) < budget →
        readItems budget (render item ++ (renderItems others ++ rest)) =
          .ok (mergedItems (item :: others), rest)
  | item, [], readable, budget, rest, enough => by
      obtain ⟨budget, rfl⟩ : ∃ less, budget = less + 1 := ⟨budget - 1, by omega⟩
      have ends := endsAt_renderItems [] rest
      exact readItems_last (readValue_render item readable.1 budget _ (by omega) ends)
  | item, next :: more, readable, budget, rest, enough => by
      obtain ⟨budget, rfl⟩ : ∃ less, budget = less + 1 := ⟨budget - 1, by omega⟩
      have ends := endsAt_renderItems (next :: more) rest
      have first := readValue_render item readable.1 budget _ (by omega) ends
      rw [renderItems, List.length_cons, List.length_cons, List.length_append] at enough
      exact readItems_cons first (readItems_render next more readable.2 budget rest (by omega))
termination_by item others => sizeOf (item :: others)

/-- Fields are read back up to the closing brace. -/
theorem readFields_render : ∀ (key : String) (value : Json) (others : List (String × Json)),
    ReadableFields ((key, value) :: others) → ∀ (budget : Nat) (rest : List Char),
      2 * ((render value).length + (renderFields others).length) < budget →
        readFields budget
          (writeText key ++ ':' :: ' ' :: (render value ++ (renderFields others ++ rest))) =
            .ok (mergedFields ((key, value) :: others), rest)
  | key, value, [], readable, budget, rest, enough => by
      obtain ⟨budget, rfl⟩ : ∃ less, budget = less + 1 := ⟨budget - 1, by omega⟩
      have ends := endsAt_renderFields [] rest
      exact readFields_last (readValue_render value readable.1 budget _ (by omega) ends)
  | key, value, (next, nextValue) :: more, readable, budget, rest, enough => by
      obtain ⟨budget, rfl⟩ : ∃ less, budget = less + 1 := ⟨budget - 1, by omega⟩
      have ends := endsAt_renderFields ((next, nextValue) :: more) rest
      have first := readValue_render value readable.1 budget _ (by omega) ends
      rw [renderFields, List.length_cons, List.length_cons, List.length_append, List.length_cons,
        List.length_cons, List.length_append] at enough
      exact readFields_cons first
        (readFields_render next nextValue more readable.2 budget rest (by omega))
termination_by key value others => sizeOf ((key, value) :: others)

end

/-! ### Whole texts -/

/-- The text of a readable tree is read as this tree, repeated keys merged. -/
theorem read_write {json : Json} (readable : json.Readable) : read json.write = .ok json.merged := by
  obtain ⟨first, others, written, notBlank, _, notMark⟩ := startsValue_render json
  have value := readValue_render json readable (stepBudget (render json)) []
    (by unfold stepBudget; omega) (fun character none => by cases none)
  have blanks := skipBlanks_render_append json []
  rw [List.append_nil] at value blanks
  have whole : readWhole (render json) = .ok json.merged := by
    unfold readWhole
    split
    · next marked =>
        rw [written] at marked
        exact absurd (List.cons.inj marked).1 notMark
    · rw [blanks, value]
      rfl
  rw [read, write, String.toList_ofList, whole]

end DocumentStore.Json
