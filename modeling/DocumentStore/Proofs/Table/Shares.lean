import DocumentStore.Table.Lemmas

/-!
Contract: the entries of one owner in a table that several owners share.

Owns: the share of an owner, and what insertions and removals, by the owner and by others, do
to it.

Does not own: who the owners are.
-/

set_option autoImplicit false

namespace DocumentStore.Table

variable {Owner Name α β : Type} [DecidableEq Owner]

/-- The entries of one owner, with their values transformed. -/
def share (owner : Owner) (transform : α → β) (table : Table (Owner × Name) α) :
    Table (Owner × Name) β :=
  (table.filter (·.1.1 = owner)).map fun entry => (entry.1, transform entry.2)

variable {owner other : Owner} (transform : α → β)

@[simp] theorem share_nil (owner : Owner) :
    share owner transform ([] : Table (Owner × Name) α) = [] := rfl

theorem share_cons_self (name : Name) (value : α) (rest : Table (Owner × Name) α) :
    share owner transform (((owner, name), value) :: rest) =
      ((owner, name), transform value) :: share owner transform rest := by
  simp [share]

theorem share_cons_of_ne (foreign : other ≠ owner) (name : Name) (value : α)
    (rest : Table (Owner × Name) α) :
    share owner transform (((other, name), value) :: rest) = share owner transform rest := by
  simp [share, foreign]

/-- The names of an owner's entries are those of its share. -/
theorem keys_share (table : Table (Owner × Name) α) :
    keys (share owner transform table) = (keys table).filter (·.1 = owner) := by
  induction table with
  | nil => rfl
  | cons entry rest inductionHypothesis =>
      obtain ⟨⟨holder, name⟩, value⟩ := entry
      by_cases own : holder = owner
      · subst own
        simp [share_cons_self, inductionHypothesis]
      · simp [share_cons_of_ne transform own, own, inductionHypothesis]

variable [DecidableEq Name]

theorem value?_share (table : Table (Owner × Name) α) (name : Name) :
    value? (share owner transform table) (owner, name) =
      (value? table (owner, name)).map transform := by
  induction table with
  | nil => rfl
  | cons entry rest inductionHypothesis =>
      obtain ⟨⟨holder, present⟩, value⟩ := entry
      by_cases own : holder = owner
      · subst own
        rw [share_cons_self, value?, value?, inductionHypothesis]
        split <;> rfl
      · rw [share_cons_of_ne transform own, value?, if_neg (by simp [own]), inductionHypothesis]

theorem share_put (table : Table (Owner × Name) α) (name : Name) (value : α) :
    share owner transform (put table (owner, name) value) =
      put (share owner transform table) (owner, name) (transform value) := by
  induction table with
  | nil => exact share_cons_self transform name value []
  | cons entry rest inductionHypothesis =>
      obtain ⟨⟨holder, present⟩, old⟩ := entry
      by_cases own : holder = owner
      · subst own
        rw [share_cons_self, put, put]
        split
        · exact share_cons_self transform present value rest
        · rw [share_cons_self, inductionHypothesis]
      · rw [put, if_neg (by simp [own]), share_cons_of_ne transform own,
          share_cons_of_ne transform own, inductionHypothesis]

theorem share_put_of_ne (foreign : other ≠ owner) (table : Table (Owner × Name) α) (name : Name)
    (value : α) :
    share owner transform (put table (other, name) value) = share owner transform table := by
  induction table with
  | nil => exact share_cons_of_ne transform foreign name value []
  | cons entry rest inductionHypothesis =>
      obtain ⟨⟨holder, present⟩, old⟩ := entry
      rw [put]
      split
      · next same =>
          obtain ⟨rfl, rfl⟩ := Prod.mk.inj same
          rw [share_cons_of_ne transform foreign, share_cons_of_ne transform foreign]
      · by_cases own : holder = owner
        · subst own
          rw [share_cons_self, share_cons_self, inductionHypothesis]
        · rw [share_cons_of_ne transform own, share_cons_of_ne transform own, inductionHypothesis]

theorem share_remove (table : Table (Owner × Name) α) (name : Name) :
    share owner transform (remove table (owner, name)) =
      remove (share owner transform table) (owner, name) := by
  induction table with
  | nil => rfl
  | cons entry rest inductionHypothesis =>
      obtain ⟨⟨holder, present⟩, old⟩ := entry
      by_cases own : holder = owner
      · subst own
        rw [share_cons_self, remove, remove]
        split
        · rfl
        · rw [share_cons_self, inductionHypothesis]
      · rw [remove, if_neg (by simp [own]), share_cons_of_ne transform own,
          share_cons_of_ne transform own, inductionHypothesis]

theorem share_remove_of_ne (foreign : other ≠ owner) (table : Table (Owner × Name) α)
    (name : Name) :
    share owner transform (remove table (other, name)) = share owner transform table := by
  induction table with
  | nil => rfl
  | cons entry rest inductionHypothesis =>
      obtain ⟨⟨holder, present⟩, old⟩ := entry
      rw [remove]
      split
      · next same =>
          obtain ⟨rfl, rfl⟩ := Prod.mk.inj same
          rw [share_cons_of_ne transform foreign]
      · by_cases own : holder = owner
        · subst own
          rw [share_cons_self, share_cons_self, inductionHypothesis]
        · rw [share_cons_of_ne transform own, share_cons_of_ne transform own, inductionHypothesis]

end DocumentStore.Table
