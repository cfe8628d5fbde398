import DocumentStore.Heap.Lemmas
import DocumentStore.Table.Lemmas

/-!
Contract: objects do not repeat a key.

Owns: the stores and the trees in which no object does, and the operations that keep a store so.

Does not own: which values are placed or set.
-/

set_option autoImplicit false

namespace DocumentStore

/-! ### Trees -/

namespace Tree

mutual

/-- No object of the tree repeats a key. -/
def WellKeyed : Tree → Prop
  | .blob _ contentType _ length digest =>
      WellKeyed contentType ∧ WellKeyed length ∧ WellKeyed digest
  | .array items => WellKeyedItems items
  | .object fields => Table.Distinct fields ∧ WellKeyedFields fields
  | _ => True

def WellKeyedItems : List Tree → Prop
  | [] => True
  | item :: rest => WellKeyed item ∧ WellKeyedItems rest

def WellKeyedFields : List (String × Tree) → Prop
  | [] => True
  | (_, value) :: rest => WellKeyed value ∧ WellKeyedFields rest

end

theorem wellKeyedFields_iff {fields : List (String × Tree)} :
    WellKeyedFields fields ↔ ∀ field ∈ fields, field.2.WellKeyed := by
  induction fields with
  | nil => simp [WellKeyedFields]
  | cons field rest inductionHypothesis =>
      obtain ⟨key, value⟩ := field
      simp [WellKeyedFields, inductionHypothesis]

end Tree

/-! ### Stores -/

namespace Store

/-- No object of the store repeats a key. -/
def WellKeyed (store : Store) : Prop :=
  ∀ ref fields, store.read? ref = some (.object fields) → Table.Distinct fields

namespace WellKeyed

theorem empty : Store.empty.WellKeyed := by
  intro ref fields read
  simp [Store.empty, read?] at read

variable {store : Store} (wellKeyed : store.WellKeyed)

include wellKeyed

theorem allocate {cell : Cell} (distinct : ∀ fields, cell = .object fields → Table.Distinct fields) :
    (store.allocate cell).2.WellKeyed := by
  intro ref fields read
  by_cases old : ref < store.size
  · rw [read?_allocate_of_lt store cell old] at read
    exact wellKeyed ref fields read
  · have bound : ref < store.size + 1 := by
      have bound := lt_size_of_read? read
      rwa [size_allocate] at bound
    obtain rfl : ref = (store.allocate cell).1 :=
      Nat.le_antisymm (Nat.le_of_lt_succ bound) (Nat.not_lt.1 old)
    rw [read?_allocate_self] at read
    exact distinct fields (Option.some.inj read)

theorem write {ref : Ref} {cell : Cell}
    (distinct : ∀ fields, cell = .object fields → Table.Distinct fields) :
    (store.write ref cell).WellKeyed := by
  intro other fields read
  by_cases same : ref = other
  · subst same
    have good := lt_size_of_read? read
    rw [size_write] at good
    rw [read?_write_self store cell good] at read
    exact distinct fields (Option.some.inj read)
  · rw [read?_write_of_ne store cell same] at read
    exact wellKeyed other fields read

theorem fields (ref : Ref) : Table.Distinct (store.fields ref) := by
  unfold Store.fields
  split
  · next fields read => exact wellKeyed ref fields read
  · exact List.nodup_nil

theorem setField (ref : Ref) (key : String) (value : Value) :
    (store.setField ref key value).WellKeyed := by
  refine wellKeyed.write fun fields same => ?_
  cases same
  exact (wellKeyed.fields ref).put key value

theorem removeField (ref : Ref) (key : String) : (store.removeField ref key).WellKeyed := by
  refine wellKeyed.write fun fields same => ?_
  cases same
  exact (wellKeyed.fields ref).remove key

theorem append (ref : Ref) (value : Value) : (store.append ref value).WellKeyed := by
  unfold Store.append
  split
  · exact wellKeyed.write fun fields same => by cases same
  · exact wellKeyed

end WellKeyed

mutual

theorem WellKeyed.place {store : Store} (wellKeyed : store.WellKeyed) (draft : Draft) :
    (store.place draft).2.WellKeyed := by
  cases draft with
  | value value => exact wellKeyed
  | array items =>
      exact (wellKeyed.placeItems items).allocate fun fields same => by cases same
  | object fields =>
      refine (wellKeyed.placeFields fields).allocate fun fields same => ?_
      cases same
      exact Table.distinct_ofEntries _
  | blob contentType content length digest =>
      exact (((wellKeyed.place contentType).place length).place digest).allocate
        fun fields same => by cases same

theorem WellKeyed.placeItems {store : Store} (wellKeyed : store.WellKeyed) (items : List Draft) :
    (store.placeItems items).2.WellKeyed := by
  cases items with
  | nil => exact wellKeyed
  | cons item rest => exact (wellKeyed.place item).placeItems rest

theorem WellKeyed.placeFields {store : Store} (wellKeyed : store.WellKeyed)
    (fields : List (String × Draft)) : (store.placeFields fields).2.WellKeyed := by
  cases fields with
  | nil => exact wellKeyed
  | cons field rest =>
      obtain ⟨key, draft⟩ := field
      exact (wellKeyed.place draft).placeFields rest

end

end Store

end DocumentStore
