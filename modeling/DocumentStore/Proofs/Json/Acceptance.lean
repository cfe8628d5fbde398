import DocumentStore.Proofs.Json.Grammar

/-!
Contract: exactly the texts that spell a tree are accepted.

Owns: that every part of a spelling takes some of the text, that the budget of the reader is enough
for whatever is spelled, and the texts that are read as a tree.

Does not own: the complaints about other texts.

Each step of the reader costs one, and a spelling of some length takes at most twice as many steps.
No text is spelled in two ways, because the first character of a value tells which kind it is.
-/

set_option autoImplicit false

namespace DocumentStore

/-! ### What is left of a text -/

namespace Numeral

theorem length_takeSign_le (text : List Char) : (takeSign text).2.length ≤ text.length := by
  unfold takeSign
  split <;> simp

theorem length_of_takeWhole {text whole rest : List Char} (taken : takeWhole text = some (whole, rest)) :
    rest.length < text.length := by
  unfold takeWhole at taken
  split at taken
  · cases taken
    exact Nat.lt_succ_self _
  · next first others _ =>
      split at taken
      · cases taken
        exact Nat.lt_succ_of_le (List.dropWhile_sublist _).length_le
      · cases taken
  · cases taken

theorem length_takeFraction_le (text : List Char) : (takeFraction text).2.length ≤ text.length := by
  unfold takeFraction
  split
  · next first rest =>
      split
      · have dropped := (List.dropWhile_sublist (l := rest) Char.isDigit).length_le
        simp only [List.length_cons]
        omega
      · exact Nat.le_refl _
  · exact Nat.le_refl _

theorem length_takeExponent_le (text : List Char) : (takeExponent text).2.length ≤ text.length := by
  unfold takeExponent
  split
  · next mark rest =>
      have sign : (takeExponentSign rest).2.length ≤ rest.length := by
        unfold takeExponentSign
        split <;> simp
      have dropped := (List.dropWhile_sublist (l := (takeExponentSign rest).2) Char.isDigit).length_le
      split
      · dsimp only
        split
        · exact Nat.le_refl _
        · simp only [List.length_cons]
          omega
      · exact Nat.le_refl _
  · exact Nat.le_refl _

theorem length_of_read {text rest : List Char} {numeral : Numeral}
    (taken : read text = some (numeral, rest)) : rest.length < text.length := by
  unfold read at taken
  dsimp only at taken
  split at taken
  · cases taken
  · next whole after takenWhole =>
      cases taken
      have sign := length_takeSign_le text
      have shorter := length_of_takeWhole takenWhole
      have fraction := length_takeFraction_le after
      have exponent := length_takeExponent_le (takeFraction after).2
      omega

end Numeral

namespace Json

theorem length_skipBlanks_le (input : List Char) : (skipBlanks input).length ≤ input.length :=
  (List.dropWhile_sublist _).length_le

theorem length_of_readNumber {input rest : List Char} {json : Json}
    (accepted : readNumber input = .ok (json, rest)) : rest.length < input.length := by
  unfold readNumber at accepted
  split at accepted
  · cases accepted
  · next numeral after taken =>
      have shorter := Numeral.length_of_read taken
      split at accepted
      · split at accepted
        · cases accepted
        · cases accepted
          exact shorter
      · cases accepted
        exact shorter

theorem length_of_readUnits {opening input rest : List Char} {units : List Nat}
    (accepted : readUnits opening input = .ok (units, rest)) : rest.length < input.length := by
  fun_induction readUnits opening input generalizing units with
  | case2 =>
      cases accepted
      exact Nat.lt_succ_self _
  | case4 _ _ _ _ _ _ _ _ inductionHypothesis | case7 _ _ _ _ _ _ inductionHypothesis
  | case10 _ _ _ _ _ _ _ _ inductionHypothesis =>
      obtain ⟨⟨others, after⟩, read, same⟩ := map_eq_ok accepted
      cases same
      have shorter := inductionHypothesis read
      simp only [List.length_cons] at shorter ⊢
      omega
  | _ => cases accepted

theorem length_of_readText {inner rest : List Char} {value : String}
    (accepted : readText inner = .ok (value, rest)) : rest.length < inner.length := by
  obtain ⟨⟨units, after⟩, read, same⟩ := map_eq_ok accepted
  cases same
  exact length_of_readUnits read

theorem length_of_readKey {input inner : List Char} {key : String}
    (accepted : readKey input = .ok (key, inner)) : inner.length < input.length := by
  unfold readKey at accepted
  split at accepted
  · next rest =>
      obtain ⟨⟨name, after⟩, read, accepted⟩ := Tree.bind_eq_ok.1 accepted
      dsimp only at accepted
      split at accepted
      · next value colon =>
          cases accepted
          have shorter := length_of_readText read
          have blanks := length_skipBlanks_le after
          have more := length_skipBlanks_le value
          rw [colon] at blanks
          simp only [List.length_cons] at blanks ⊢
          omega
      · cases accepted
  · cases accepted

mutual

/-- A spelling takes at least one character. -/
theorem Spells.length_lt {input rest : List Char} {json : Json} (spelled : Spells input json rest) :
    rest.length < input.length := by
  cases spelled with
  | null | wordTrue | wordFalse | notNumber | infinity | negativeInfinity =>
      simp only [List.length_cons]
      omega
  | number read => exact length_of_readNumber read
  | text read => exact Nat.lt_succ_of_lt (length_of_readText read)
  | @emptyArray inner _ closed | @emptyObject inner _ closed =>
      have blanks := length_skipBlanks_le inner
      rw [closed] at blanks
      simp only [List.length_cons] at blanks ⊢
      omega
  | @array inner _ _ listed =>
      have blanks := length_skipBlanks_le inner
      exact Nat.lt_succ_of_lt (Nat.lt_of_lt_of_le listed.length_lt blanks)
  | @object inner _ _ listed =>
      have blanks := length_skipBlanks_le inner
      exact Nat.lt_succ_of_lt (Nat.lt_of_lt_of_le listed.length_lt blanks)

theorem SpellsItems.length_lt {input rest : List Char} {items : List Json}
    (listed : SpellsItems input items rest) : rest.length < input.length := by
  cases listed with
  | @last _ between _ _ spelled closed =>
      have first := spelled.length_lt
      have blanks := length_skipBlanks_le between
      rw [closed, List.length_cons] at blanks
      omega
  | @cons _ between more _ _ _ spelled comma others =>
      have first := spelled.length_lt
      have later := others.length_lt
      have blanks := length_skipBlanks_le between
      have further := length_skipBlanks_le more
      rw [comma, List.length_cons] at blanks
      omega

theorem SpellsFields.length_lt {input rest : List Char} {fields : List (String × Json)}
    (listed : SpellsFields input fields rest) : rest.length < input.length := by
  cases listed with
  | @last _ _ between _ _ _ named spelled closed =>
      have key := length_of_readKey named
      have first := spelled.length_lt
      have blanks := length_skipBlanks_le between
      rw [closed, List.length_cons] at blanks
      omega
  | @cons _ _ between more _ _ _ _ named spelled comma others =>
      have key := length_of_readKey named
      have first := spelled.length_lt
      have later := others.length_lt
      have blanks := length_skipBlanks_le between
      have further := length_skipBlanks_le more
      rw [comma, List.length_cons] at blanks
      omega

end

/-! ### First characters -/

/-- A number starts with a digit, or with a minus sign and a digit after it. -/
theorem readNumber_cons_of_not_digit {first : Char} {rest : List Char} (noDigit : first.isDigit = false)
    (noSign : first ≠ '-') :
    readNumber (first :: rest) = .error (.complaint .expectingValue (first :: rest)) := by
  have unsigned : Numeral.takeSign (first :: rest) = (false, first :: rest) := by
    unfold Numeral.takeSign
    split
    · next same => exact absurd (List.cons.inj same).1 noSign
    · rfl
  have none : Numeral.takeWhole (first :: rest) = none := by
    unfold Numeral.takeWhole
    split
    · next same =>
        rw [(List.cons.inj same).1] at noDigit
        cases noDigit
    · next same =>
        cases same
        rw [if_neg (by rw [noDigit]; decide)]
    · rfl
  rw [readNumber, Numeral.read, unsigned]
  dsimp only
  rw [none]

/-- A text that starts with a number is read as a number. -/
theorem readValue_of_readNumber {budget : Nat} {input rest : List Char} {json : Json}
    (accepted : readNumber input = .ok (json, rest)) :
    readValue (budget + 1) input = .ok (json, rest) := by
  have other : ∀ {first : Char} {others : List Char}, input = first :: others →
      first.isDigit = false → first ≠ '-' → False := by
    rintro first others rfl noDigit noSign
    rw [readNumber_cons_of_not_digit noDigit noSign] at accepted
    cases accepted
  unfold readValue
  split
  case h_10 => exact accepted
  case h_9 => cases accepted
  -- a text, a container or a word
  all_goals exact (other rfl rfl (by decide)).elim

/-- No value starts with a bracket that closes. -/
theorem SpellsItems.not_closed {after rest : List Char} {items : List Json} :
    ¬SpellsItems (']' :: after) items rest := by
  have none : ∀ {json between}, ¬Spells (']' :: after) json between := by
    intro json between spelled
    cases spelled with
    | number read =>
        rw [readNumber_cons_of_not_digit rfl (by decide)] at read
        cases read
  intro listed
  cases listed with
  | last spelled | cons spelled => exact none spelled

theorem SpellsFields.not_closed {after rest : List Char} {fields : List (String × Json)} :
    ¬SpellsFields ('\x7d' :: after) fields rest := by
  intro listed
  cases listed with
  | last named | cons named => cases named

/-! ### Acceptance -/

mutual

/-- What is spelled is read, repeated keys merged, within two steps for each character. -/
theorem Spells.readValue_eq {input rest : List Char} {json : Json} (spelled : Spells input json rest)
    (budget : Nat) (enough : 2 * input.length ≤ budget + 2 * rest.length) :
    readValue budget input = .ok (json.merged, rest) := by
  have taken := spelled.length_lt
  obtain ⟨budget, rfl⟩ : ∃ less, budget = less + 1 := ⟨budget - 1, by omega⟩
  cases spelled with
  | null | wordTrue | wordFalse | notNumber | infinity | negativeInfinity => rfl
  | number read =>
      rw [(readNumber_eq_ok read).2]
      exact readValue_of_readNumber read
  | text read =>
      rw [readValue, read]
      rfl
  | emptyArray closed | emptyObject closed =>
      rw [readValue, closed]
      rfl
  | @array inner _ items listed =>
      have blanks := length_skipBlanks_le inner
      rw [List.length_cons] at enough
      have others := listed.readItems_eq budget (by omega)
      rw [readValue]
      split
      · next closed =>
          rw [closed] at listed
          exact absurd listed SpellsItems.not_closed
      · rw [others]
        rfl
  | @object inner _ fields listed =>
      have blanks := length_skipBlanks_le inner
      rw [List.length_cons] at enough
      have others := listed.readFields_eq budget (by omega)
      rw [readValue]
      split
      · next closed =>
          rw [closed] at listed
          exact absurd listed SpellsFields.not_closed
      · rw [others]
        rfl

theorem SpellsItems.readItems_eq {input rest : List Char} {items : List Json}
    (listed : SpellsItems input items rest) (budget : Nat)
    (enough : 2 * input.length < budget + 2 * rest.length) :
    readItems budget input = .ok (mergedItems items, rest) := by
  have taken := listed.length_lt
  obtain ⟨budget, rfl⟩ : ∃ less, budget = less + 1 := ⟨budget - 1, by omega⟩
  cases listed with
  | @last _ between _ item spelled closed =>
      have blanks := length_skipBlanks_le between
      rw [closed, List.length_cons] at blanks
      have first := spelled.readValue_eq budget (by omega)
      rw [readItems]
      simp only [bind, Except.bind, first, closed]
      rfl
  | @cons _ between more _ item others spelled comma later =>
      have blanks := length_skipBlanks_le between
      have further := length_skipBlanks_le more
      have takenFirst := spelled.length_lt
      have takenLater := later.length_lt
      rw [comma, List.length_cons] at blanks
      have first := spelled.readValue_eq budget (by omega)
      have remaining := later.readItems_eq budget (by omega)
      rw [readItems]
      simp only [bind, Except.bind, first, comma, remaining]
      rfl

theorem SpellsFields.readFields_eq {input rest : List Char} {fields : List (String × Json)}
    (listed : SpellsFields input fields rest) (budget : Nat)
    (enough : 2 * input.length < budget + 2 * rest.length) :
    readFields budget input = .ok (mergedFields fields, rest) := by
  have taken := listed.length_lt
  obtain ⟨budget, rfl⟩ : ∃ less, budget = less + 1 := ⟨budget - 1, by omega⟩
  cases listed with
  | @last _ _ between _ key value named spelled closed =>
      have blanks := length_skipBlanks_le between
      have keyTaken := length_of_readKey named
      rw [closed, List.length_cons] at blanks
      have first := spelled.readValue_eq budget (by omega)
      rw [readFields]
      simp only [bind, Except.bind, named, first, closed]
      rfl
  | @cons _ _ between more _ key value others named spelled comma later =>
      have blanks := length_skipBlanks_le between
      have further := length_skipBlanks_le more
      have keyTaken := length_of_readKey named
      have takenFirst := spelled.length_lt
      have takenLater := later.length_lt
      rw [comma, List.length_cons] at blanks
      have first := spelled.readValue_eq budget (by omega)
      have remaining := later.readFields_eq budget (by omega)
      rw [readFields]
      simp only [bind, Except.bind, named, first, comma, remaining]
      rfl

end

/-- A text is read as a tree exactly if it spells one, and the tree is the spelled one with repeated
keys merged. -/
theorem read_eq_ok_iff {text : String} {json : Json} :
    read text = .ok json ↔ ∃ raw, SpelledBy raw text ∧ json = raw.merged := by
  constructor
  · intro accepted
    obtain ⟨raw, spelled, same, _⟩ := exists_spelled_of_read accepted
    exact ⟨raw, spelled, same⟩
  · rintro ⟨raw, ⟨rest, spelled, ended⟩, rfl⟩
    have shorter := length_skipBlanks_le text.toList
    have value := spelled.readValue_eq (stepBudget text.toList)
      (by unfold stepBudget; omega)
    have whole : readWhole text.toList = .ok raw.merged := by
      unfold readWhole
      split
      · next others marked =>
          -- nothing that is spelled starts with a byte order mark, which is no blank either
          have kept : skipBlanks ('\ufeff' :: others) = '\ufeff' :: others := rfl
          rw [marked, kept] at spelled
          cases spelled with
          | number read =>
              rw [readNumber_cons_of_not_digit rfl (by decide)] at read
              cases read
      · simp only [bind, Except.bind, value, ended]
    rw [read, whole]

end Json

end DocumentStore
