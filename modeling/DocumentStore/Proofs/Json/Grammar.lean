import DocumentStore.Proofs.Json.Trees
import Mathlib.Data.List.TakeWhile

/-!
Contract: what a text that is accepted spells.

Owns: the trees that texts spell, repeated keys included; that reading a text gives the tree it
spells with repeated keys merged, and that every such tree can be written.

Does not own: the texts that are refused, and the spelling of strings and numbers.

A spelled tree lists the fields of an object as they stand in the text. The induction is on the
budget of the reader, for values, items and fields at once.
-/

set_option autoImplicit false

namespace DocumentStore

/-! ### Tables of listings -/

namespace Table

variable {κ α : Type} [DecidableEq κ]

theorem ofEntries_append_singleton (entries : List (κ × α)) (entry : κ × α) :
    ofEntries (entries ++ [entry]) = put (ofEntries entries) entry.1 entry.2 := by
  rw [ofEntries, List.foldl_append]
  rfl

/-- Each key of a listing stands where it came first. -/
theorem keys_ofEntries (entries : List (κ × α)) :
    keys (ofEntries entries) = (keys entries).eraseDups := by
  induction entries using List.reverseRecOn with
  | nil => rfl
  | append_singleton entries entry inductionHypothesis =>
      have split : keys (entries ++ [entry]) = keys entries ++ [entry.1] := List.map_append
      rw [ofEntries_append_singleton, keys_put, inductionHypothesis, split, List.eraseDups_append]
      by_cases repeated : entry.1 ∈ keys entries
      · rw [if_pos (List.mem_eraseDups.2 repeated)]
        simp [List.removeAll, repeated]
      · rw [if_neg fun member => repeated (List.mem_eraseDups.1 member)]
        simp [List.removeAll, repeated, List.eraseDups_cons]

/-- Under a key stands the last value that the listing has for it. -/
theorem value?_ofEntries (entries : List (κ × α)) (key : κ) :
    value? (ofEntries entries) key = value? entries.reverse key := by
  induction entries using List.reverseRecOn with
  | nil => rfl
  | append_singleton entries entry inductionHypothesis =>
      rw [ofEntries_append_singleton, value?_put, inductionHypothesis, List.reverse_append]
      rfl

end Table

namespace Json

/-! ### Merging -/

/-- A tree is another one with repeated keys merged: in every object each key stands where it came
first, with what became of the last value given for it. -/
inductive Merges : Json → Json → Prop where
  | null : Merges .null .null
  | boolean (value : Bool) : Merges (.boolean value) (.boolean value)
  | integer (value : Int) : Merges (.integer value) (.integer value)
  | double (value : Double) : Merges (.double value) (.double value)
  | text (value : String) : Merges (.text value) (.text value)
  | array {raw items : List Json} (each : List.Forall₂ Merges raw items) :
      Merges (.array raw) (.array items)
  | object {raw fields : List (String × Json)}
      (keys : Table.keys fields = (Table.keys raw).eraseDups)
      (values : ∀ key last value, Table.value? raw.reverse key = some last →
        Table.value? fields key = some value → Merges last value) :
      Merges (.object raw) (.object fields)

theorem mergedFields_eq_map (fields : List (String × Json)) :
    mergedFields fields = fields.map fun field => (field.1, field.2.merged) := by
  induction fields with
  | nil => rfl
  | cons field rest inductionHypothesis =>
      obtain ⟨key, value⟩ := field
      rw [mergedFields, inductionHypothesis]
      rfl

mutual

/-- What the reader makes of a tree is the tree with repeated keys merged. -/
theorem merges_merged (json : Json) : json.Merges json.merged := by
  cases json with
  | null => exact .null
  | boolean value => exact .boolean value
  | integer value => exact .integer value
  | double value => exact .double value
  | text value => exact .text value
  | array items => exact .array (merges_mergedItems items)
  | object fields =>
      have inside := merges_mergedFields fields
      refine .object ?_ fun key last value given found => ?_
      · rw [Table.keys_ofEntries, mergedFields_eq_map, Table.keys, List.map_map]
        rfl
      · rw [Table.value?_ofEntries, mergedFields_eq_map, ← List.map_reverse] at found
        obtain ⟨other, foundOther, same⟩ :=
          (Table.Fieldwise.map merged fields.reverse).value?_eq_some given
        obtain rfl := Option.some.inj (found.symm.trans foundOther)
        rw [same]
        exact inside _ (List.mem_reverse.1 (Table.mem_of_value? given))

theorem merges_mergedItems (items : List Json) : List.Forall₂ Merges items (mergedItems items) := by
  cases items with
  | nil => exact .nil
  | cons item rest => exact .cons (merges_merged item) (merges_mergedItems rest)

theorem merges_mergedFields (fields : List (String × Json)) :
    ∀ field ∈ fields, field.2.Merges field.2.merged := by
  cases fields with
  | nil =>
      intro field member
      cases member
  | cons first rest =>
      obtain ⟨key, value⟩ := first
      exact List.forall_mem_cons.2 ⟨merges_merged value, merges_mergedFields rest⟩

end

/-! ### Numbers -/

theorem isDigit_takeWhole {input whole rest : List Char}
    (taken : Numeral.takeWhole input = some (whole, rest)) :
    ∀ digit ∈ whole, digit.isDigit = true := by
  unfold Numeral.takeWhole at taken
  split at taken
  · cases taken
    simp
  · next first others _ =>
      split at taken
      · next isDigit =>
          cases taken
          exact List.forall_mem_cons.2 ⟨isDigit, fun digit member => List.mem_takeWhile_imp member⟩
      · cases taken
  · cases taken

theorem isDigit_read {input rest : List Char} {numeral : Numeral}
    (taken : Numeral.read input = some (numeral, rest)) :
    ∀ digit ∈ numeral.whole, digit.isDigit = true := by
  unfold Numeral.read at taken
  dsimp only at taken
  split at taken
  · cases taken
  · next whole after takenWhole =>
      cases taken
      exact isDigit_takeWhole takenWhole

/-- A number that is read is an integer of few enough digits, or a double. -/
theorem readNumber_eq_ok {input rest : List Char} {json : Json}
    (accepted : readNumber input = .ok (json, rest)) : json.Readable ∧ json.merged = json := by
  unfold readNumber at accepted
  split at accepted
  · cases accepted
  · next numeral after taken =>
      split at accepted
      · split at accepted
        · cases accepted
        · next short =>
            cases accepted
            refine ⟨?_, rfl⟩
            have bound := digitsValue_lt (isDigit_read taken)
            have magnitude : numeral.integer.natAbs = digitsValue numeral.whole := by
              unfold Numeral.integer
              dsimp only
              split <;> omega
            show digitCount numeral.integer ≤ digitLimit
            rw [digitCount, magnitude]
            apply (Nat.length_toDigits_le_iff (by decide) (by decide)).2
            exact Nat.lt_of_lt_of_le bound (Nat.pow_le_pow_right (by decide) (Nat.not_lt.1 short))
      · cases accepted
        exact ⟨trivial, rfl⟩

/-! ### Spelling -/

mutual

/-- A text starts with the spelling of a tree, and this follows it. -/
inductive Spells : List Char → Json → List Char → Prop where
  | null (rest : List Char) : Spells ('n' :: 'u' :: 'l' :: 'l' :: rest) .null rest
  | wordTrue (rest : List Char) : Spells ('t' :: 'r' :: 'u' :: 'e' :: rest) (.boolean true) rest
  | wordFalse (rest : List Char) :
      Spells ('f' :: 'a' :: 'l' :: 's' :: 'e' :: rest) (.boolean false) rest
  | notNumber (rest : List Char) : Spells ('N' :: 'a' :: 'N' :: rest) (.double .nan) rest
  | infinity (rest : List Char) :
      Spells ('I' :: 'n' :: 'f' :: 'i' :: 'n' :: 'i' :: 't' :: 'y' :: rest)
        (.double (.infinite false)) rest
  | negativeInfinity (rest : List Char) :
      Spells ('-' :: 'I' :: 'n' :: 'f' :: 'i' :: 'n' :: 'i' :: 't' :: 'y' :: rest)
        (.double (.infinite true)) rest
  | number {input rest : List Char} {json : Json} (read : readNumber input = .ok (json, rest)) :
      Spells input json rest
  | text {inner rest : List Char} {value : String} (read : readText inner = .ok (value, rest)) :
      Spells ('"' :: inner) (.text value) rest
  | emptyArray {inner rest : List Char} (closed : skipBlanks inner = ']' :: rest) :
      Spells ('[' :: inner) (.array []) rest
  | array {inner rest : List Char} {items : List Json}
      (listed : SpellsItems (skipBlanks inner) items rest) : Spells ('[' :: inner) (.array items) rest
  | emptyObject {inner rest : List Char} (closed : skipBlanks inner = '\x7d' :: rest) :
      Spells ('\x7b' :: inner) (.object []) rest
  | object {inner rest : List Char} {fields : List (String × Json)}
      (listed : SpellsFields (skipBlanks inner) fields rest) :
      Spells ('\x7b' :: inner) (.object fields) rest

/-- One or more spelled values with commas between them, up to the closing bracket. -/
inductive SpellsItems : List Char → List Json → List Char → Prop where
  | last {input between rest : List Char} {item : Json} (spelled : Spells input item between)
      (closed : skipBlanks between = ']' :: rest) : SpellsItems input [item] rest
  | cons {input between more rest : List Char} {item : Json} {others : List Json}
      (spelled : Spells input item between) (comma : skipBlanks between = ',' :: more)
      (listed : SpellsItems (skipBlanks more) others rest) : SpellsItems input (item :: others) rest

/-- One or more keys with spelled values, up to the closing brace. -/
inductive SpellsFields : List Char → List (String × Json) → List Char → Prop where
  | last {input inner between rest : List Char} {key : String} {value : Json}
      (named : readKey input = .ok (key, inner)) (spelled : Spells inner value between)
      (closed : skipBlanks between = '\x7d' :: rest) : SpellsFields input [(key, value)] rest
  | cons {input inner between more rest : List Char} {key : String} {value : Json}
      {others : List (String × Json)} (named : readKey input = .ok (key, inner))
      (spelled : Spells inner value between) (comma : skipBlanks between = ',' :: more)
      (listed : SpellsFields (skipBlanks more) others rest) :
      SpellsFields input ((key, value) :: others) rest

end

mutual

theorem Spells.readable {input rest : List Char} {json : Json} (spelled : Spells input json rest) :
    json.Readable := by
  cases spelled with
  | number read => exact (readNumber_eq_ok read).1
  | array listed => exact listed.readable
  | object listed => exact listed.readable
  | _ => exact trivial

theorem SpellsItems.readable {input rest : List Char} {items : List Json}
    (listed : SpellsItems input items rest) : ReadableItems items := by
  cases listed with
  | last spelled closed => exact ⟨spelled.readable, trivial⟩
  | cons spelled comma others => exact ⟨spelled.readable, others.readable⟩

theorem SpellsFields.readable {input rest : List Char} {fields : List (String × Json)}
    (listed : SpellsFields input fields rest) : ReadableFields fields := by
  cases listed with
  | last named spelled closed => exact ⟨spelled.readable, trivial⟩
  | cons named spelled comma others => exact ⟨spelled.readable, others.readable⟩

end

/-- What is read within a budget is spelled, up to repeated keys. -/
structure Sound (budget : Nat) : Prop where
  value : ∀ {input json rest}, readValue budget input = .ok (json, rest) →
    ∃ raw, Spells input raw rest ∧ json = raw.merged
  items : ∀ {input items rest}, readItems budget input = .ok (items, rest) →
    ∃ raw, SpellsItems input raw rest ∧ items = mergedItems raw
  fields : ∀ {input fields rest}, readFields budget input = .ok (fields, rest) →
    ∃ raw, SpellsFields input raw rest ∧ fields = mergedFields raw

theorem map_eq_ok {Fault Result Final : Type} {function : Result → Final}
    {first : Except Fault Result} {final : Final} (done : first.map function = .ok final) :
    ∃ result, first = .ok result ∧ function result = final := by
  cases first with
  | error fault => cases done
  | ok result => exact ⟨result, rfl, Except.ok.inj done⟩

section Steps

variable {budget : Nat} (sound : Sound budget)

include sound

private theorem exists_spelled_value {input rest : List Char} {json : Json}
    (accepted : readValue (budget + 1) input = .ok (json, rest)) :
    ∃ raw, Spells input raw rest ∧ json = raw.merged := by
  unfold readValue at accepted
  split at accepted
  · obtain ⟨⟨value, after⟩, read, same⟩ := map_eq_ok accepted
    cases same
    exact ⟨_, .text read, rfl⟩
  · split at accepted
    · next closed =>
        cases accepted
        exact ⟨_, .emptyObject closed, rfl⟩
    · obtain ⟨⟨fields, after⟩, read, same⟩ := map_eq_ok accepted
      cases same
      obtain ⟨raw, listed, rfl⟩ := sound.fields read
      exact ⟨_, .object listed, rfl⟩
  · split at accepted
    · next closed =>
        cases accepted
        exact ⟨_, .emptyArray closed, rfl⟩
    · obtain ⟨⟨items, after⟩, read, same⟩ := map_eq_ok accepted
      cases same
      obtain ⟨raw, listed, rfl⟩ := sound.items read
      exact ⟨_, .array listed, rfl⟩
  · cases accepted
    exact ⟨_, .null _, rfl⟩
  · cases accepted
    exact ⟨_, .wordTrue _, rfl⟩
  · cases accepted
    exact ⟨_, .wordFalse _, rfl⟩
  · cases accepted
    exact ⟨_, .notNumber _, rfl⟩
  · cases accepted
    exact ⟨_, .infinity _, rfl⟩
  · cases accepted
    exact ⟨_, .negativeInfinity _, rfl⟩
  · exact ⟨json, .number accepted, (readNumber_eq_ok accepted).2.symm⟩

private theorem exists_spelled_items {input rest : List Char} {items : List Json}
    (accepted : readItems (budget + 1) input = .ok (items, rest)) :
    ∃ raw, SpellsItems input raw rest ∧ items = mergedItems raw := by
  rw [readItems] at accepted
  obtain ⟨⟨item, between⟩, read, accepted⟩ := Tree.bind_eq_ok.1 accepted
  obtain ⟨rawItem, spelled, rfl⟩ := sound.value read
  dsimp only at accepted
  split at accepted
  · next closed =>
      cases accepted
      exact ⟨_, .last spelled closed, rfl⟩
  · next comma =>
      obtain ⟨⟨others, after⟩, readOthers, same⟩ := map_eq_ok accepted
      cases same
      obtain ⟨raw, listed, rfl⟩ := sound.items readOthers
      exact ⟨_, .cons spelled comma listed, rfl⟩
  · cases accepted

private theorem exists_spelled_fields {input rest : List Char} {fields : List (String × Json)}
    (accepted : readFields (budget + 1) input = .ok (fields, rest)) :
    ∃ raw, SpellsFields input raw rest ∧ fields = mergedFields raw := by
  rw [readFields] at accepted
  obtain ⟨⟨key, inner⟩, named, accepted⟩ := Tree.bind_eq_ok.1 accepted
  obtain ⟨⟨value, between⟩, read, accepted⟩ := Tree.bind_eq_ok.1 accepted
  obtain ⟨rawValue, spelled, rfl⟩ := sound.value read
  dsimp only at accepted
  split at accepted
  · next closed =>
      cases accepted
      exact ⟨_, .last named spelled closed, rfl⟩
  · next comma =>
      obtain ⟨⟨others, after⟩, readOthers, same⟩ := map_eq_ok accepted
      cases same
      obtain ⟨raw, listed, rfl⟩ := sound.fields readOthers
      exact ⟨_, .cons named spelled comma listed, rfl⟩
  · cases accepted

end Steps

theorem sound (budget : Nat) : Sound budget := by
  induction budget with
  | zero => constructor <;> (intro _ _ _ accepted; cases accepted)
  | succ budget inductionHypothesis =>
      exact ⟨exists_spelled_value inductionHypothesis, exists_spelled_items inductionHypothesis,
        exists_spelled_fields inductionHypothesis⟩

/-- A text spells a tree: blanks may stand around the spelling, and nothing else. -/
def SpelledBy (raw : Json) (text : String) : Prop :=
  ∃ rest, Spells (skipBlanks text.toList) raw rest ∧ skipBlanks rest = []

/-- The tree of a text that is accepted is what the text spells, with repeated keys merged. -/
theorem exists_spelled_of_read {text : String} {json : Json} (accepted : read text = .ok json) :
    ∃ raw, SpelledBy raw text ∧ json = raw.merged ∧ json.Readable := by
  have whole : readWhole text.toList = .ok json := by
    unfold read at accepted
    split at accepted
    · next value read =>
        cases accepted
        exact read
    all_goals cases accepted
  unfold readWhole at whole
  split at whole
  · cases whole
  · obtain ⟨⟨value, after⟩, read, whole⟩ := Tree.bind_eq_ok.1 whole
    dsimp only at whole
    split at whole
    · next ended =>
        cases whole
        obtain ⟨raw, spelled, same⟩ := (sound _).value read
        exact ⟨raw, ⟨after, spelled, ended⟩, same, same ▸ raw.readable_merged spelled.readable⟩
    · cases whole

end Json

end DocumentStore
