import DocumentStore.Table.Lemmas

/-!
Contract: two listings with the same keys and related values.

Owns: the relation, the keys of both listings, and what is found in one for what is found in
the other.

Does not own: where such listings come from.
-/

set_option autoImplicit false

namespace DocumentStore.Table

variable {κ α β γ : Type}

/-- The listings have the same keys in the same order, and the values at each of them are
related. -/
inductive Fieldwise (relation : α → β → Prop) : List (κ × α) → List (κ × β) → Prop where
  | nil : Fieldwise relation [] []
  | cons {key : κ} {value : α} {other : β} {rest : List (κ × α)} {others : List (κ × β)}
      (related : relation value other) (remaining : Fieldwise relation rest others) :
      Fieldwise relation ((key, value) :: rest) ((key, other) :: others)

namespace Fieldwise

variable {relation : α → β → Prop} {fields : List (κ × α)} {others : List (κ × β)}

theorem keys_eq (fieldwise : Fieldwise relation fields others) : keys others = keys fields := by
  induction fieldwise with
  | nil => rfl
  | cons _ _ inductionHypothesis => rw [keys_cons, keys_cons, inductionHypothesis]

theorem distinct (fieldwise : Fieldwise relation fields others) (distinct : Distinct fields) :
    Distinct others := by
  rw [Distinct, fieldwise.keys_eq]
  exact distinct

theorem related_of_mem_zip (fieldwise : Fieldwise relation fields others) :
    ∀ pair ∈ (fields.map Prod.snd).zip (others.map Prod.snd), relation pair.1 pair.2 := by
  induction fieldwise with
  | nil => simp
  | cons related _ inductionHypothesis => exact List.forall_mem_cons.2 ⟨related, inductionHypothesis⟩

theorem mono {wider : α → β → Prop} (fieldwise : Fieldwise relation fields others)
    (implies : ∀ value other, relation value other → wider value other) :
    Fieldwise wider fields others := by
  induction fieldwise with
  | nil => exact .nil
  | cons related _ inductionHypothesis => exact .cons (implies _ _ related) inductionHypothesis

theorem comp {further : β → γ → Prop} {last : List (κ × γ)}
    (first : Fieldwise relation fields others) (second : Fieldwise further others last) :
    Fieldwise (fun value final => ∃ between, relation value between ∧ further between final)
      fields last := by
  induction first generalizing last with
  | nil =>
      cases second
      exact .nil
  | cons related _ inductionHypothesis =>
      cases second with
      | cons furtherRelated remaining =>
          exact .cons ⟨_, related, furtherRelated⟩ (inductionHypothesis remaining)

theorem map (function : α → β) (fields : List (κ × α)) :
    Fieldwise (fun value other => other = function value) fields
      (fields.map fun field => (field.1, function field.2)) := by
  induction fields with
  | nil => exact .nil
  | cons field rest inductionHypothesis => exact .cons rfl inductionHypothesis

variable [DecidableEq κ]

theorem value?_eq_some (fieldwise : Fieldwise relation fields others) {key : κ} {value : α}
    (found : value? fields key = some value) :
    ∃ other, value? others key = some other ∧ relation value other := by
  induction fieldwise with
  | nil => cases found
  | @cons present held other rest others related _ inductionHypothesis =>
      by_cases same : present = key
      · rw [value?, if_pos same] at found
        obtain rfl := Option.some.inj found
        exact ⟨other, by rw [value?, if_pos same], related⟩
      · rw [value?, if_neg same] at found
        obtain ⟨other, foundOther, relatedOther⟩ := inductionHypothesis found
        exact ⟨other, by rw [value?, if_neg same, foundOther], relatedOther⟩

theorem value?_eq_none (fieldwise : Fieldwise relation fields others) {key : κ}
    (absent : value? fields key = none) : value? others key = none := by
  rw [value?_eq_none_iff] at absent ⊢
  rw [fieldwise.keys_eq]
  exact absent

/-- Whatever is found in the second listing comes from the first one. -/
theorem exists_value? (fieldwise : Fieldwise relation fields others) {key : κ} {other : β}
    (found : value? others key = some other) :
    ∃ value, value? fields key = some value ∧ relation value other := by
  cases sought : value? fields key with
  | none =>
      rw [fieldwise.value?_eq_none sought] at found
      cases found
  | some value =>
      obtain ⟨same, foundSame, related⟩ := fieldwise.value?_eq_some sought
      rw [found] at foundSame
      obtain rfl := Option.some.inj foundSame
      exact ⟨value, rfl, related⟩

theorem put (fieldwise : Fieldwise relation fields others) (key : κ) {value : α} {other : β}
    (related : relation value other) :
    Fieldwise relation (Table.put fields key value) (Table.put others key other) := by
  induction fieldwise with
  | nil => exact .cons related .nil
  | @cons present held heldOther rest restOthers heldRelated remaining inductionHypothesis =>
      rw [Table.put, Table.put]
      split
      · exact .cons related remaining
      · exact .cons heldRelated inductionHypothesis

theorem remove (fieldwise : Fieldwise relation fields others) (key : κ) :
    Fieldwise relation (Table.remove fields key) (Table.remove others key) := by
  induction fieldwise with
  | nil => exact .nil
  | @cons present held heldOther rest restOthers heldRelated remaining inductionHypothesis =>
      rw [Table.remove, Table.remove]
      split
      · exact remaining
      · exact .cons heldRelated inductionHypothesis

end Fieldwise

end DocumentStore.Table
