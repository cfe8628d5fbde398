import DocumentStore.Proofs.Heap.Circles

/-!
Contract: what a value shows depends only on the cells at and below it.

Owns: stores that have the same cells at and below a value, when a change leaves these cells alone,
and that the value then unfolds to the same tree.

Does not own: which cells a change writes to.

Unfolding stops where a path comes back, so circles need no care. That the later store has more cells
gives a path more steps, of which it needs none where all containers are there.
-/

set_option autoImplicit false

namespace DocumentStore.Store

variable {store after : Store} {value inner : Value} {ref : Ref} {cell : Cell}

/-- Two stores have the same cells at and below a value. -/
def SameBelow (store after : Store) (value : Value) : Prop :=
  ∀ ref, store.Reaches [value] (.cell ref) → after.read? ref = store.read? ref

namespace SameBelow

theorem self (same : store.SameBelow after (.cell ref)) : after.read? ref = store.read? ref :=
  same ref (.self store _)

theorem below (same : store.SameBelow after value) (reaches : store.Reaches [value] inner) :
    store.SameBelow after inner :=
  fun ref further => same ref (reaches.trans further)

theorem inside (same : store.SameBelow after (.cell ref)) (read : store.read? ref = some cell)
    (member : inner ∈ cell.values) : store.SameBelow after inner :=
  same.below ((Reaches.self store _).inside read member)

theorem of_scalar (scalar : ∀ ref, value ≠ .cell ref) : store.SameBelow after value :=
  fun ref reaches => absurd (reaches.eq_of_scalar scalar).symm (scalar ref)

theorem of_spares {changed : Ref → Prop} (spares : store.Spares after changed)
    (intact : store.Intact value)
    (apart : ∀ ref, store.Reaches [value] (.cell ref) → ¬changed ref) :
    store.SameBelow after value :=
  fun ref reaches => spares.others ref (apart ref reaches) (intact ref reaches)

section Readings

variable (same : store.SameBelow after value)

include same

theorem kind : after.kind value = store.kind value := by
  cases value with
  | cell ref => rw [Store.kind, Store.kind, same.self]
  | _ => rfl

theorem blob? : after.blob? value = store.blob? value := by
  cases value with
  | cell ref => rw [Store.blob?, Store.blob?, same.self]
  | _ => rfl

theorem object? : after.object? value = store.object? value := by
  cases value with
  | cell ref => rw [Store.object?, Store.object?, same.self]
  | _ => rfl

theorem array? : after.array? value = store.array? value := by
  cases value with
  | cell ref => rw [Store.array?, Store.array?, same.self]
  | _ => rfl

end Readings

theorem unfoldWithin (same : store.SameBelow after value) (steps : Nat) (path : List Ref) :
    after.unfoldWithin true steps path value = store.unfoldWithin true steps path value := by
  -- whatever a step enters is below the value again, whichever path leads there
  induction steps generalizing path value with
  | zero =>
      cases value with
      | cell ref => exact congrArg (Tree.cycle · ref) same.kind
      | _ => rfl
  | succ steps inductionHypothesis =>
      cases value with
      | cell ref =>
          by_cases met : ref ∈ path
          · rw [Store.unfoldWithin, Store.unfoldWithin, if_pos met, if_pos met, same.kind]
          · cases read : store.read? ref with
            | none =>
                rw [Store.unfoldWithin, Store.unfoldWithin, if_neg met, if_neg met, same.self, read]
            | some cell =>
                rw [unfoldWithin_of_fresh steps met (same.self.trans read),
                  unfoldWithin_of_fresh steps met read]
                exact Cell.treeOf_congr fun inner member =>
                  inductionHypothesis (same.inside read member) (ref :: path)
      | _ => rfl

/-- A value whose containers are all there unfolds to the same tree. -/
theorem unfold (same : store.SameBelow after value) (intact : store.Intact value)
    (grown : store.size ≤ after.size) : after.unfold value = store.unfold value := by
  obtain ⟨more, size⟩ := Nat.exists_eq_add_of_le grown
  rw [Store.unfold, Store.unfold, same.unfoldWithin, size,
    unfoldWithin_of_more_steps intact (.nil store) (Nat.le_add_right _ _)]

end SameBelow

end DocumentStore.Store
