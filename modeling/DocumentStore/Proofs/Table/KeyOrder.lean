import DocumentStore.Table.Lemmas
import Mathlib.Data.List.Nodup
import Mathlib.Data.List.Perm.Subperm

/-!
Contract: a table in the order of its keys depends on its look-ups only.

Owns: look-ups in tables whose values are mapped, tables that are equal but for the order of
arrival, and when two tables become the same one in the order of their keys.

Does not own: what the values are.
-/

set_option autoImplicit false

namespace DocumentStore.Table

variable {κ α β : Type}

section LookUps

variable [DecidableEq κ]

theorem value?_map (function : α → β) (table : Table κ α) (key : κ) :
    value? (table.map fun entry => (entry.1, function entry.2)) key =
      (value? table key).map function := by
  induction table with
  | nil => rfl
  | cons entry rest inductionHypothesis =>
      obtain ⟨present, value⟩ := entry
      rw [List.map_cons, value?, value?]
      split
      · rfl
      · exact inductionHypothesis

variable {table other : Table κ α}

/-- Tables are equal but for the order of arrival if every look-up gives the same. -/
theorem perm_iff_value?_eq (distinct : Distinct table) (otherDistinct : Distinct other) :
    table.Perm other ↔ ∀ key, value? table key = value? other key := by
  have members : table.Perm other ↔ ∀ entry, entry ∈ table ↔ entry ∈ other :=
    List.perm_ext_iff_of_nodup (List.Nodup.of_map _ distinct) (List.Nodup.of_map _ otherDistinct)
  rw [members]
  constructor
  · intro same key
    refine Option.ext fun value => ?_
    rw [value?_eq_some_iff distinct, value?_eq_some_iff otherDistinct, same]
  · rintro same ⟨key, value⟩
    rw [← value?_eq_some_iff distinct, ← value?_eq_some_iff otherDistinct, same]

/-- Of two tables of one length it is enough to look up the entries of the first in the second. -/
theorem value?_eq_iff_length_eq_and (distinct : Distinct table) (otherDistinct : Distinct other) :
    (∀ key, value? table key = value? other key)
      ↔ table.length = other.length ∧ ∀ entry ∈ table, value? other entry.1 = some entry.2 := by
  simp only [← perm_iff_value?_eq distinct otherDistinct, value?_eq_some_iff otherDistinct]
  constructor
  · exact fun same => ⟨same.length_eq, fun entry member => same.subset member⟩
  · rintro ⟨length, inside⟩
    have part := List.subperm_of_subset (List.Nodup.of_map _ distinct) inside
    exact part.perm_of_length_le (Nat.le_of_eq length.symm)

end LookUps

section Order

variable {table other : Table String α}

theorem pairwise_inKeyOrder (table : Table String α) :
    (inKeyOrder table).Pairwise fun left right => left.1 ≤ right.1 := by
  have ordered := @List.pairwise_mergeSort (String × α)
    (fun left right => decide (left.1 ≤ right.1))
    (fun first second third => by simpa using String.le_trans)
    (fun first second => by simpa using String.le_total first.1 second.1) table
  simpa only [inKeyOrder, decide_eq_true_eq] using ordered

theorem inKeyOrder_inKeyOrder (table : Table String α) :
    inKeyOrder (inKeyOrder table) = inKeyOrder table :=
  List.mergeSort_of_pairwise (by simpa only [decide_eq_true_eq] using pairwise_inKeyOrder table)

theorem inKeyOrder_map (function : α → β) (table : Table String α) :
    inKeyOrder (table.map fun entry => (entry.1, function entry.2)) =
      (inKeyOrder table).map fun entry => (entry.1, function entry.2) := by
  rw [inKeyOrder, inKeyOrder, List.map_mergeSort]
  intro first _ second _
  rfl

/-- Two tables become the same one in the order of their keys if and only if every look-up
gives the same in both. -/
theorem inKeyOrder_eq_iff (distinct : Distinct table) (otherDistinct : Distinct other) :
    inKeyOrder table = inKeyOrder other ↔ ∀ key, value? table key = value? other key := by
  rw [← perm_iff_value?_eq distinct otherDistinct]
  constructor
  · intro same
    exact (inKeyOrder_perm table).symm.trans (same ▸ inKeyOrder_perm other)
  · intro perm
    have orders : (inKeyOrder table).Perm (inKeyOrder other) :=
      (inKeyOrder_perm table).trans (perm.trans (inKeyOrder_perm other).symm)
    refine List.Perm.eq_of_pairwise ?_ (pairwise_inKeyOrder table) (pairwise_inKeyOrder other) orders
    -- Entries with the same key are the same entry, because no key repeats.
    intro first second firstIn secondIn before after
    have firstFound := (value?_eq_some_iff distinct).2 ((inKeyOrder_perm table).mem_iff.1 firstIn)
    have secondFound := (value?_eq_some_iff distinct).2
      (perm.mem_iff.2 ((inKeyOrder_perm other).mem_iff.1 secondIn))
    have keys : first.1 = second.1 := String.le_antisymm before after
    rw [keys, secondFound] at firstFound
    exact Prod.ext keys (Option.some.inj firstFound).symm

end Order

end DocumentStore.Table
