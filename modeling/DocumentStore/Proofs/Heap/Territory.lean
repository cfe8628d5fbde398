import DocumentStore.Proofs.Heap.Layout

/-!
Contract: what a program can do to the cells it does not know.

Owns: sets of cells that refer to each other only, and the effect that placing a draft and
changing a cell in place have on the cells outside of such a set.

Does not own: which cells an engine keeps for itself.

Whoever knows a closed set of cells and changes them in place, with values from the set, never
gets to a cell outside. New cells extend the set; `ChangesOnly` says so for one change, and it
composes.
-/

set_option autoImplicit false

namespace DocumentStore

/-- A value refers to nothing outside of some cells. -/
def Value.Within (mine : Ref → Prop) (value : Value) : Prop :=
  ∀ ref, value = .cell ref → mine ref

theorem Value.Within.mono {mine grown : Ref → Prop} {value : Value} (within : value.Within mine)
    (keeps : ∀ ref, mine ref → grown ref) : value.Within grown :=
  fun ref same => keeps ref (within ref same)

mutual

/-- The values that a draft is built from. -/
def Draft.leaves : Draft → List Value
  | .value leaf => [leaf]
  | .array items => Draft.leavesOfItems items
  | .object fields => Draft.leavesOfFields fields
  | .blob contentType _ length digest =>
      Draft.leaves contentType ++ Draft.leaves length ++ Draft.leaves digest

def Draft.leavesOfItems : List Draft → List Value
  | [] => []
  | item :: rest => Draft.leaves item ++ Draft.leavesOfItems rest

def Draft.leavesOfFields : List (String × Draft) → List Value
  | [] => []
  | (_, field) :: rest => Draft.leaves field ++ Draft.leavesOfFields rest

end

mutual

/-- A JSON tree is built from nothing that was there before. -/
theorem Json.within_leaves_draft (mine : Ref → Prop) (json : Json) :
    ∀ value ∈ json.draft.leaves, value.Within mine := by
  cases json with
  | array items => exact Json.within_leaves_itemDrafts mine items
  | object fields => exact Json.within_leaves_fieldDrafts mine fields
  | _ =>
      intro value member
      rw [List.mem_singleton.1 member]
      intro ref same
      cases same

theorem Json.within_leaves_itemDrafts (mine : Ref → Prop) (items : List Json) :
    ∀ value ∈ Draft.leavesOfItems (Json.itemDrafts items), value.Within mine := by
  cases items with
  | nil =>
      intro value member
      cases member
  | cons item rest =>
      rw [Json.itemDrafts, Draft.leavesOfItems, List.forall_mem_append]
      exact ⟨Json.within_leaves_draft mine item, Json.within_leaves_itemDrafts mine rest⟩

theorem Json.within_leaves_fieldDrafts (mine : Ref → Prop) (fields : List (String × Json)) :
    ∀ value ∈ Draft.leavesOfFields (Json.fieldDrafts fields), value.Within mine := by
  cases fields with
  | nil =>
      intro value member
      cases member
  | cons field rest =>
      obtain ⟨key, value⟩ := field
      rw [Json.fieldDrafts, Draft.leavesOfFields, List.forall_mem_append]
      exact ⟨Json.within_leaves_draft mine value, Json.within_leaves_fieldDrafts mine rest⟩

end

namespace Store

/-- Cells that are there and refer to each other only. -/
structure Closed (store : Store) (mine : Ref → Prop) : Prop where
  present : ∀ ref, mine ref → ref < store.size
  inside : ∀ ref cell, mine ref → store.read? ref = some cell →
    ∀ value ∈ cell.values, value.Within mine

/-- What can be reached from some values. -/
inductive Reaches (store : Store) (kept : List Value) : Value → Prop where
  | kept {value : Value} (member : value ∈ kept) : Reaches store kept value
  | inside {ref : Ref} {cell : Cell} {value : Value} (above : Reaches store kept (.cell ref))
      (read : store.read? ref = some cell) (member : value ∈ cell.values) :
      Reaches store kept value

/-- Two values have no container in common, wherever it stands in them. -/
def Separate (store : Store) (left right : Value) : Prop :=
  ∀ position other ref, store.at? position left = some (.cell ref) →
    store.at? other right ≠ some (.cell ref)

section Closed

variable {store : Store} {mine : Ref → Prop} (closed : store.Closed mine) {value inner : Value}

include closed

theorem Closed.reaches {kept : List Value} (within : ∀ value ∈ kept, value.Within mine)
    (reaches : store.Reaches kept value) : value.Within mine := by
  induction reaches with
  | kept member => exact within _ member
  | inside _ read member above => exact closed.inside _ _ (above _ rfl) read _ member

theorem Closed.at? {position : List Nat} (within : value.Within mine)
    (found : store.at? position value = some inner) : inner.Within mine := by
  induction position generalizing value with
  | nil =>
      cases found
      exact within
  | cons place rest inductionHypothesis =>
      obtain ⟨between, inside, foundInner⟩ := at?_cons_eq_some found
      obtain ⟨ref, cell, rfl, read, held⟩ := inside?_eq_some inside
      have known := closed.inside ref cell (within ref rfl) read
      exact inductionHypothesis (known between (List.mem_of_getElem? held)) foundInner

end Closed

/-- A change of the store leaves all cells but some as they were. These and new ones are closed
afterwards. -/
structure ChangesOnly (before after : Store) (mine grown : Ref → Prop) : Prop
    extends before.Spares after mine where
  keeps : ∀ ref, mine ref → grown ref
  gained : ∀ ref, grown ref → mine ref ∨ before.size ≤ ref
  closed : after.Closed grown

namespace ChangesOnly

variable {before between after : Store} {mine grown final : Ref → Prop}

theorem refl (closed : before.Closed mine) : before.ChangesOnly before mine mine where
  size_le := Nat.le_refl _
  others := fun _ _ _ => rfl
  keeps := fun _ owned => owned
  gained := fun _ owned => .inl owned
  closed := closed

theorem foreign (changes : before.ChangesOnly after mine grown) {ref : Ref} (foreign : ¬mine ref)
    (old : ref < before.size) : ¬grown ref := by
  intro owned
  rcases changes.gained ref owned with early | new
  · exact foreign early
  · exact Nat.lt_irrefl _ (Nat.lt_of_lt_of_le old new)

theorem trans (first : before.ChangesOnly between mine grown)
    (second : between.ChangesOnly after grown final) : before.ChangesOnly after mine final where
  size_le := Nat.le_trans first.size_le second.size_le
  others := by
    intro ref foreign old
    rw [second.others ref (first.foreign foreign old) (Nat.lt_of_lt_of_le old first.size_le),
      first.others ref foreign old]
  keeps := fun ref owned => second.keeps ref (first.keeps ref owned)
  gained := by
    intro ref owned
    rcases second.gained ref owned with early | new
    · exact first.gained ref early
    · exact .inr (Nat.le_trans first.size_le new)
  closed := second.closed

/-- Cells that are allocated for someone else change nothing. -/
theorem of_extends (closed : before.Closed mine) (extension : Extends after before) :
    before.ChangesOnly after mine mine where
  size_le := extension.size_le
  others := by
    intro ref _ old
    exact agreeOn_of_extends extension 0 ref (Nat.zero_le _) old
  keeps := fun _ owned => owned
  gained := fun _ owned => .inl owned
  closed := by
    constructor
    · intro ref owned
      exact Nat.lt_of_lt_of_le (closed.present ref owned) extension.size_le
    · intro ref cell owned read
      rw [agreeOn_of_extends extension 0 ref (Nat.zero_le _) (closed.present ref owned)] at read
      exact closed.inside ref cell owned read

end ChangesOnly

section Changes

variable {store : Store} {mine : Ref → Prop} (closed : store.Closed mine)

include closed

theorem changesOnly_write {ref : Ref} {cell : Cell} (owned : mine ref)
    (within : ∀ value ∈ cell.values, value.Within mine) :
    store.ChangesOnly (store.write ref cell) mine mine where
  size_le := Nat.le_of_eq (size_write store ref cell).symm
  others := by
    intro other foreign _
    apply read?_write_of_ne
    rintro rfl
    exact foreign owned
  keeps := fun _ owned => owned
  gained := fun _ owned => .inl owned
  closed := by
    constructor
    · intro other ownedOther
      rw [size_write]
      exact closed.present other ownedOther
    · intro other held ownedOther read
      by_cases same : ref = other
      · subst same
        rw [read?_write_self store cell (closed.present ref owned)] at read
        cases read
        exact within
      · rw [read?_write_of_ne store cell same] at read
        exact closed.inside other held ownedOther read

theorem changesOnly_allocate {cell : Cell} (within : ∀ value ∈ cell.values, value.Within mine) :
    store.ChangesOnly (store.allocate cell).2 mine (fun ref => mine ref ∨ ref = store.size) where
  size_le := by
    rw [size_allocate]
    exact Nat.le_succ _
  others := fun ref _ old => read?_allocate_of_lt store cell old
  keeps := fun _ owned => .inl owned
  gained := by
    rintro ref (old | rfl)
    · exact .inl old
    · exact .inr (Nat.le_refl _)
  closed := by
    constructor
    · intro ref owned
      rw [size_allocate]
      rcases owned with old | rfl
      · exact Nat.lt_succ_of_lt (closed.present ref old)
      · exact Nat.lt_succ_self _
    · intro ref held owned read value member
      have old : value.Within mine := by
        rcases owned with old | rfl
        · rw [read?_allocate_of_lt store cell (closed.present ref old)] at read
          exact closed.inside ref held old read value member
        · have placed : (store.allocate cell).2.read? store.size = some cell :=
            read?_allocate_self store cell
          rw [placed] at read
          cases read
          exact within value member
      exact old.mono fun _ => .inl

end Changes

/-! ### Placing a draft -/

mutual

/-- Placing a draft of one's own values adds new cells to one's own. -/
theorem changesOnly_place {store : Store} {mine : Ref → Prop} (closed : store.Closed mine)
    (draft : Draft) (within : ∀ value ∈ draft.leaves, value.Within mine) :
    ∃ grown, store.ChangesOnly (store.place draft).2 mine grown
      ∧ (store.place draft).1.Within grown := by
  cases draft with
  | value value => exact ⟨mine, .refl closed, within value (List.mem_singleton_self value)⟩
  | array items =>
      obtain ⟨grown, placing, items⟩ := changesOnly_placeItems closed items within
      refine ⟨_, placing.trans (changesOnly_allocate placing.closed items), ?_⟩
      rintro ref ⟨⟩
      exact .inr rfl
  | object fields =>
      obtain ⟨grown, placing, fields⟩ := changesOnly_placeFields closed fields within
      refine ⟨_, placing.trans (changesOnly_allocate placing.closed ?_), ?_⟩
      · intro value member
        exact fields value (Table.mem_values_ofEntries member)
      · rintro ref ⟨⟩
        exact .inr rfl
  | blob contentType content length digest =>
      rw [Draft.leaves, List.forall_mem_append, List.forall_mem_append] at within
      obtain ⟨⟨withinType, withinLength⟩, withinDigest⟩ := within
      obtain ⟨second, placingType, type⟩ := changesOnly_place closed contentType withinType
      obtain ⟨third, placingLength, length⟩ := changesOnly_place placingType.closed length
        fun value member => (withinLength value member).mono placingType.keeps
      obtain ⟨fourth, placingDigest, digest⟩ := changesOnly_place placingLength.closed digest
        fun value member => ((withinDigest value member).mono placingType.keeps).mono
          placingLength.keeps
      refine ⟨_, ((placingType.trans placingLength).trans placingDigest).trans
        (changesOnly_allocate placingDigest.closed ?_), ?_⟩
      · intro value member
        rcases List.mem_cons.1 member with rfl | member
        · exact (type.mono placingLength.keeps).mono placingDigest.keeps
        · rcases List.mem_cons.1 member with rfl | member
          · exact length.mono placingDigest.keeps
          · rw [List.mem_singleton.1 member]
            exact digest
      · rintro ref ⟨⟩
        exact .inr rfl

theorem changesOnly_placeItems {store : Store} {mine : Ref → Prop} (closed : store.Closed mine)
    (items : List Draft) (within : ∀ value ∈ Draft.leavesOfItems items, value.Within mine) :
    ∃ grown, store.ChangesOnly (store.placeItems items).2 mine grown
      ∧ ∀ value ∈ (store.placeItems items).1, value.Within grown := by
  cases items with
  | nil =>
      refine ⟨mine, .refl closed, ?_⟩
      intro value member
      cases member
  | cons item rest =>
      rw [Draft.leavesOfItems, List.forall_mem_append] at within
      obtain ⟨between, placing, first⟩ := changesOnly_place closed item within.1
      obtain ⟨grown, placingRest, others⟩ := changesOnly_placeItems placing.closed rest
        fun value member => (within.2 value member).mono placing.keeps
      refine ⟨grown, placing.trans placingRest, ?_⟩
      intro value member
      rcases List.mem_cons.1 member with rfl | later
      · exact first.mono placingRest.keeps
      · exact others value later

theorem changesOnly_placeFields {store : Store} {mine : Ref → Prop} (closed : store.Closed mine)
    (fields : List (String × Draft))
    (within : ∀ value ∈ Draft.leavesOfFields fields, value.Within mine) :
    ∃ grown, store.ChangesOnly (store.placeFields fields).2 mine grown
      ∧ ∀ value ∈ (store.placeFields fields).1.map Prod.snd, value.Within grown := by
  cases fields with
  | nil =>
      refine ⟨mine, .refl closed, ?_⟩
      intro value member
      cases member
  | cons field rest =>
      obtain ⟨key, field⟩ := field
      rw [Draft.leavesOfFields, List.forall_mem_append] at within
      obtain ⟨between, placing, first⟩ := changesOnly_place closed field within.1
      obtain ⟨grown, placingRest, others⟩ := changesOnly_placeFields placing.closed rest
        fun value member => (within.2 value member).mono placing.keeps
      refine ⟨grown, placing.trans placingRest, ?_⟩
      intro value member
      rcases List.mem_cons.1 member with rfl | later
      · exact first.mono placingRest.keeps
      · exact others value later

end

/-! ### Changes in place -/

section InPlace

variable {store : Store} {mine : Ref → Prop} (closed : store.Closed mine) {ref : Ref}
  (owned : mine ref)

include closed owned

theorem Closed.fields : ∀ value ∈ (store.fields ref).map Prod.snd, value.Within mine := by
  unfold Store.fields
  split
  · next fields read => exact closed.inside ref _ owned read
  · intro value member
    cases member

theorem changesOnly_append {value : Value} (within : value.Within mine) :
    store.ChangesOnly (store.append ref value) mine mine := by
  unfold append
  split
  · next items read =>
      apply changesOnly_write closed owned
      intro other member
      rcases List.mem_append.1 member with old | new
      · exact closed.inside ref _ owned read other old
      · rw [List.mem_singleton.1 new]
        exact within
  · exact .refl closed

theorem changesOnly_setField {value : Value} (key : String) (within : value.Within mine) :
    store.ChangesOnly (store.setField ref key value) mine mine := by
  apply changesOnly_write closed owned
  intro other member
  rcases Table.mem_values_put member with rfl | old
  · exact within
  · exact closed.fields owned other old

theorem changesOnly_removeField (key : String) :
    store.ChangesOnly (store.removeField ref key) mine mine := by
  apply changesOnly_write closed owned
  intro other member
  exact closed.fields owned other (((Table.remove_sublist _ key).map Prod.snd).subset member)

end InPlace

end Store

end DocumentStore
