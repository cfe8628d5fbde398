import DocumentStore.Heap.Draft
import DocumentStore.Table.Lemmas

/-!
Contract: what allocation, changes in place and placement do to the cells of a store.

Owns: the cell behind a reference after each operation, and the fields of an object
after a change of one of them.

Does not own: unfolding. A tree depends on all cells that can be reached, so what it
keeps follows from what the cells keep.

Allocation and placement leave every cell that was there as it was (`Extends`); a
change in place is seen through the reference it was made with and through no other.
-/

set_option autoImplicit false

namespace DocumentStore.Store

@[simp] theorem read?_allocate_self (store : Store) (cell : Cell) :
    (store.allocate cell).2.read? (store.allocate cell).1 = some cell := by
  simp [allocate, read?]

theorem read?_allocate_of_lt (store : Store) (cell : Cell) {ref : Ref} (old : ref < store.size) :
    (store.allocate cell).2.read? ref = store.read? ref := by
  have different : ref ≠ store.cells.size := Nat.ne_of_lt old
  simp [allocate, read?, Array.getElem?_push, different]

@[simp] theorem size_allocate (store : Store) (cell : Cell) :
    (store.allocate cell).2.size = store.size + 1 := by
  simp [allocate, size]

theorem read?_eq_none_iff {store : Store} {ref : Ref} :
    store.read? ref = none ↔ store.size ≤ ref := by
  simp [read?, size]

theorem lt_size_of_read? {store : Store} {ref : Ref} {cell : Cell}
    (found : store.read? ref = some cell) : ref < store.size := by
  refine Nat.lt_of_not_le fun beyond => ?_
  rw [read?_eq_none_iff.2 beyond] at found
  cases found

@[simp] theorem size_write (store : Store) (ref : Ref) (cell : Cell) :
    (store.write ref cell).size = store.size := by
  simp [write, size]

theorem read?_write_self (store : Store) {ref : Ref} (cell : Cell) (good : ref < store.size) :
    (store.write ref cell).read? ref = some cell := by
  have bound : ref < store.cells.size := good
  simp [write, read?, bound]

theorem read?_write_of_ne (store : Store) {ref other : Ref} (cell : Cell) (different : ref ≠ other) :
    (store.write ref cell).read? other = store.read? other := by
  simp [write, read?, different]

theorem fields_setField_self (store : Store) {ref : Ref} (key : String) (value : Value)
    (good : ref < store.size) :
    (store.setField ref key value).fields ref = Table.put (store.fields ref) key value := by
  simp [fields, setField, read?_write_self store _ good]

theorem blob?_eq_some_iff {store : Store} {value : Value} {blob : Blob} :
    store.blob? value = some blob ↔ ∃ ref, value = .cell ref ∧ store.read? ref = some (.blob blob) := by
  constructor
  · intro held
    unfold blob? at held
    split at held
    · next ref =>
        split at held
        · next found read =>
            cases held
            exact ⟨ref, rfl, read⟩
        · cases held
    · cases held
  · rintro ⟨ref, rfl, read⟩
    simp only [blob?, read]

theorem object?_eq_some_iff {store : Store} {value : Value} {fields : Table String Value} :
    store.object? value = some fields ↔
      ∃ ref, value = .cell ref ∧ store.read? ref = some (.object fields) := by
  constructor
  · intro held
    unfold object? at held
    split at held
    · next ref =>
        split at held
        · next found read =>
            cases held
            exact ⟨ref, rfl, read⟩
        · cases held
    · cases held
  · rintro ⟨ref, rfl, read⟩
    simp only [object?, read]

theorem blob?_eq_none_of_object? {store : Store} {value : Value} {fields : Table String Value}
    (found : store.object? value = some fields) : store.blob? value = none := by
  obtain ⟨ref, rfl, read⟩ := object?_eq_some_iff.1 found
  simp only [blob?, read]

/-- A store that holds every cell of another one, unchanged. -/
def Extends (later earlier : Store) : Prop :=
  ∀ ref cell, earlier.read? ref = some cell → later.read? ref = some cell

namespace Extends

theorem refl (store : Store) : Extends store store :=
  fun _ _ found => found

theorem trans {last later earlier : Store} (second : Extends last later)
    (first : Extends later earlier) : Extends last earlier :=
  fun ref cell found => second ref cell (first ref cell found)

theorem allocate (store : Store) (cell : Cell) : Extends (store.allocate cell).2 store := by
  intro ref found read
  rw [read?_allocate_of_lt store cell (lt_size_of_read? read)]
  exact read

end Extends

section Placement

mutual

theorem extends_place (store : Store) (draft : Draft) : Extends (store.place draft).2 store := by
  cases draft with
  | value value => exact Extends.refl store
  | array items =>
      exact (Extends.allocate _ _).trans (extends_placeItems store items)
  | object fields =>
      exact (Extends.allocate _ _).trans (extends_placeFields store fields)
  | blob contentType content length digest =>
      exact (Extends.allocate _ _).trans
        (((extends_place _ digest).trans (extends_place _ length)).trans
          (extends_place store contentType))

theorem extends_placeItems (store : Store) (items : List Draft) :
    Extends (store.placeItems items).2 store := by
  cases items with
  | nil => exact Extends.refl store
  | cons item rest =>
      exact (extends_placeItems (store.place item).2 rest).trans (extends_place store item)

theorem extends_placeFields (store : Store) (fields : List (String × Draft)) :
    Extends (store.placeFields fields).2 store := by
  cases fields with
  | nil => exact Extends.refl store
  | cons field rest =>
      obtain ⟨key, draft⟩ := field
      exact (extends_placeFields (store.place draft).2 rest).trans (extends_place store draft)

end

end Placement

end DocumentStore.Store
