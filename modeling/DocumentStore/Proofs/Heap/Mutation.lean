import DocumentStore.Document
import DocumentStore.Proofs.Heap.Territory
import DocumentStore.Proofs.Heap.WellKeyed

/-!
Contract: the changes that callers make in place.

Owns: these changes, the values that a caller needs for each, their effect on the other cells of
the store, and the keys of the objects that they change.

Does not own: which values a caller knows.

Each change writes to one container that was there before. A blob is written in new containers
first, which is why a change can make the store grow.
-/

set_option autoImplicit false

namespace DocumentStore

/-- A change that a caller makes to a container. -/
inductive Mutation where
  | append (ref : Ref) (value : Value)
  | setField (ref : Ref) (key : String) (value : Value)
  | removeField (ref : Ref) (key : String)
  /-- Any other content for a container: items inserted, replaced, removed or sorted. -/
  | overwrite (ref : Ref) (cell : Cell)
  | set (document : Document) (key : String) (value : Value)
  | setBlob (document : Document) (key : String) (blob : Blob)
  | setValue (document : Document) (key : String) (value : Value)
  | setMoment (document : Document) (key : String) (moment : Option Calendar.Moment)
  | remove (document : Document) (key : String)
  | setBag (document : Document) (bag : Ref)

namespace Mutation

/-- The store after a change; a setter that fails changes nothing. -/
def apply (store : Store) : Mutation → Store
  | append ref value => store.append ref value
  | setField ref key value => store.setField ref key value
  | removeField ref key => store.removeField ref key
  | overwrite ref cell => store.write ref cell
  | set document key value => document.set store key value
  | setBlob document key blob => document.setBlob store key blob
  | setValue document key value => document.setValue store key value
  | setMoment document key moment =>
      match document.setMoment store key moment with
      | .ok after => after
      | .error _ => store
  | remove document key => document.remove store key
  | setBag document bag => (document.setBag store bag).2

/-- The container that is changed. -/
def target : Mutation → Ref
  | append ref _ | setField ref _ _ | removeField ref _ | overwrite ref _ => ref
  | set document _ _ | setBlob document _ _ | setValue document _ _ | setMoment document _ _
  | remove document _ => document.bag
  | setBag _ bag => bag

/-- The values that a change brings into its container. -/
def brings : Mutation → List Value
  | append _ value | setField _ _ value | set _ _ value | setValue _ _ value => [value]
  | overwrite _ cell => cell.values
  | setBlob _ _ blob => (Cell.blob blob).values
  | removeField _ _ | setMoment _ _ _ | remove _ _ | setBag _ _ => []

end Mutation

/-! ### Blobs that are written -/

section Blobs

variable {mine : Ref → Prop}

theorem Value.within_text (text : String) : (Value.text text).Within mine := by
  rintro ref ⟨⟩

theorem Draft.within_leaves_byteNumbers (mine : Ref → Prop) (content : Digest.Bytes) :
    ∀ value ∈ (Draft.byteNumbers content).leaves, value.Within mine := by
  rw [byteNumbers, Draft.leaves]
  induction content with
  | nil =>
      intro value member
      cases member
  | cons byte rest inductionHypothesis =>
      rw [List.map_cons, Draft.leavesOfItems, List.forall_mem_append]
      refine ⟨?_, inductionHypothesis⟩
      intro value member
      rw [List.mem_singleton.1 member]
      rintro ref ⟨⟩

/-- The written form of a blob refers to what the blob refers to. -/
theorem Blob.within_leaves_property {blob : Blob}
    (within : ∀ value ∈ (Cell.blob blob).values, value.Within mine) :
    ∀ value ∈ blob.property.leaves, value.Within mine := by
  have type : blob.contentType.Within mine := within _ (by simp [Cell.values])
  have length : blob.length.Within mine := within _ (by simp [Cell.values])
  have digest : blob.digest.Within mine := within _ (by simp [Cell.values])
  unfold Blob.property
  split
  · simpa [Draft.leaves, Draft.leavesOfFields, Draft.text] using
      ⟨Value.within_text _, type, digest, length⟩
  · have numbers := Draft.within_leaves_byteNumbers mine (blob.content.getD [])
    simpa [Draft.leaves, Draft.leavesOfFields, Draft.text, Blob.dictionary] using
      ⟨Value.within_text _, type, numbers⟩

end Blobs

/-! ### Effects -/

namespace Store

section Territory

variable {store : Store} {mine : Ref → Prop} (closed : store.Closed mine)

include closed

theorem Closed.blob? {value : Value} {blob : Blob} (within : value.Within mine)
    (held : store.blob? value = some blob) :
    ∀ inner ∈ (Cell.blob blob).values, inner.Within mine := by
  obtain ⟨ref, rfl, read⟩ := blob?_eq_some_iff.1 held
  exact closed.inside ref _ (within ref rfl) read

theorem changesOnly_writeBlob {ref : Ref} {blob : Blob} (key : String) (owned : mine ref)
    (within : ∀ value ∈ (Cell.blob blob).values, value.Within mine) :
    ∃ grown, store.ChangesOnly
      ((store.place blob.property).2.setField ref key (store.place blob.property).1) mine grown := by
  obtain ⟨grown, placing, written⟩ :=
    changesOnly_place closed blob.property (Blob.within_leaves_property within)
  refine ⟨grown, placing.trans ?_⟩
  exact changesOnly_setField placing.closed (placing.keeps _ owned) key written

theorem changesOnly_writeBlobs {bag : Ref} (owned : mine bag) {fields : Table String Value}
    (within : ∀ value ∈ fields.map Prod.snd, value.Within mine) :
    ∃ grown, store.ChangesOnly (Document.writeBlobs store bag fields) mine grown := by
  induction fields generalizing store mine with
  | nil => exact ⟨mine, .refl closed⟩
  | cons field rest inductionHypothesis =>
      obtain ⟨key, value⟩ := field
      rw [List.map_cons, List.forall_mem_cons] at within
      rw [Document.writeBlobs]
      cases held : store.blob? value with
      | none => exact inductionHypothesis closed owned within.2
      | some blob =>
          obtain ⟨between, setting⟩ :=
            changesOnly_writeBlob closed key owned (closed.blob? within.1 held)
          obtain ⟨grown, writing⟩ := inductionHypothesis setting.closed (setting.keeps bag owned)
            fun other member => (within.2 other member).mono setting.keeps
          exact ⟨grown, setting.trans writing⟩

end Territory

namespace Spares

variable {before between after : Store} {changed : Ref → Prop}

theorem refl (store : Store) : store.Spares store changed :=
  ⟨Nat.le_refl _, fun _ _ _ => rfl⟩

theorem trans (first : before.Spares between changed) (second : between.Spares after changed) :
    before.Spares after changed where
  size_le := Nat.le_trans first.size_le second.size_le
  others := by
    intro ref spared old
    rw [second.others ref spared (Nat.lt_of_lt_of_le old first.size_le),
      first.others ref spared old]

theorem of_extends (extension : Extends after before) : before.Spares after changed where
  size_le := extension.size_le
  others := fun ref _ old => agreeOn_of_extends extension 0 ref (Nat.zero_le _) old

theorem write (store : Store) (ref : Ref) (cell : Cell) :
    store.Spares (store.write ref cell) (· = ref) where
  size_le := Nat.le_of_eq (size_write store ref cell).symm
  others := fun _ different _ => read?_write_of_ne store cell (Ne.symm different)

theorem writeBlob (store : Store) (ref : Ref) (key : String) (blob : Blob) :
    store.Spares ((store.place blob.property).2.setField ref key (store.place blob.property).1)
      (· = ref) :=
  (of_extends (extends_place store blob.property)).trans (write _ _ _)

theorem writeBlobs (store : Store) (bag : Ref) (fields : Table String Value) :
    store.Spares (Document.writeBlobs store bag fields) (· = bag) := by
  induction fields generalizing store with
  | nil => exact .refl store
  | cons field rest inductionHypothesis =>
      obtain ⟨key, value⟩ := field
      rw [Document.writeBlobs]
      cases store.blob? value with
      | none => exact inductionHypothesis store
      | some blob => exact (writeBlob store bag key blob).trans (inductionHypothesis _)

end Spares

end Store

namespace Mutation

/-- A change of one's own container, with one's own values, changes one's own cells only. -/
theorem changesOnly {store : Store} {mine : Ref → Prop} (closed : store.Closed mine)
    (mutation : Mutation) (owned : mine mutation.target)
    (within : ∀ value ∈ mutation.brings, value.Within mine) :
    ∃ grown, store.ChangesOnly (mutation.apply store) mine grown := by
  cases mutation with
  | append ref value =>
      exact ⟨mine, Store.changesOnly_append closed owned (within value (List.mem_singleton_self _))⟩
  | setField ref key value | set document key value =>
      have brought := within value (List.mem_singleton_self _)
      exact ⟨mine, Store.changesOnly_setField closed owned key brought⟩
  | removeField ref key | remove document key =>
      exact ⟨mine, Store.changesOnly_removeField closed owned key⟩
  | overwrite ref cell => exact ⟨mine, Store.changesOnly_write closed owned within⟩
  | setBlob document key blob => exact Store.changesOnly_writeBlob closed key owned within
  | setValue document key value =>
      have brought := within value (List.mem_singleton_self _)
      rw [apply, Document.setValue]
      split
      · next blob held =>
          exact Store.changesOnly_writeBlob closed key owned (closed.blob? brought held)
      · exact ⟨mine, Store.changesOnly_setField closed owned key brought⟩
  | setMoment document key moment =>
      cases moment with
      | none =>
          refine ⟨mine, Store.changesOnly_setField closed owned key ?_⟩
          rintro ref ⟨⟩
      | some moment =>
          simp only [apply, Document.setMoment]
          cases Calendar.Timestamp.write? moment with
          | none => exact ⟨mine, .refl closed⟩
          | some text =>
              exact ⟨mine, Store.changesOnly_setField closed owned key (Value.within_text text)⟩
  | setBag document bag => exact Store.changesOnly_writeBlobs closed owned (closed.fields owned)

/-- A change writes to its own container and to no other one. -/
theorem spares (mutation : Mutation) (store : Store) :
    store.Spares (mutation.apply store) (· = mutation.target) := by
  cases mutation with
  | append ref value =>
      rw [apply, Store.append]
      split
      · exact .write store ref _
      · exact .refl store
  | setField | set | removeField | remove | overwrite => exact .write store _ _
  | setBlob document key blob => exact .writeBlob store _ key blob
  | setValue document key value =>
      rw [apply, Document.setValue]
      split
      · exact .writeBlob store _ key _
      · exact .write store _ _
  | setMoment document key moment =>
      cases moment with
      | none => exact .write store _ _
      | some moment =>
          simp only [apply, Document.setMoment]
          cases Calendar.Timestamp.write? moment with
          | none => exact .refl store
          | some text => exact .write store _ _
  | setBag document bag => exact .writeBlobs store bag _

end Mutation

/-! ### Keys -/

theorem Store.WellKeyed.writeBlob {store : Store} (wellKeyed : store.WellKeyed) (ref : Ref)
    (key : String) (blob : Blob) :
    ((store.place blob.property).2.setField ref key (store.place blob.property).1).WellKeyed :=
  (wellKeyed.place _).setField ref key _

theorem Store.WellKeyed.writeBlobs {store : Store} (wellKeyed : store.WellKeyed) (bag : Ref)
    (fields : Table String Value) : (Document.writeBlobs store bag fields).WellKeyed := by
  induction fields generalizing store with
  | nil => exact wellKeyed
  | cons field rest inductionHypothesis =>
      obtain ⟨key, value⟩ := field
      rw [Document.writeBlobs]
      cases store.blob? value with
      | none => exact inductionHypothesis wellKeyed
      | some blob => exact inductionHypothesis (wellKeyed.writeBlob bag key blob)

/-- A change that repeats no key lets no object repeat one. -/
theorem Mutation.wellKeyed {store : Store} (wellKeyed : store.WellKeyed) (mutation : Mutation)
    (distinct : ∀ ref fields, mutation = .overwrite ref (.object fields) → Table.Distinct fields) :
    (mutation.apply store).WellKeyed := by
  cases mutation with
  | append ref value => exact wellKeyed.append ref value
  | setField ref key value => exact wellKeyed.setField ref key value
  | removeField ref key => exact wellKeyed.removeField ref key
  | overwrite ref cell =>
      refine wellKeyed.write fun fields same => ?_
      subst same
      exact distinct ref fields rfl
  | set document key value => exact wellKeyed.setField document.bag key value
  | setBlob document key blob => exact wellKeyed.writeBlob document.bag key blob
  | setValue document key value =>
      rw [apply, Document.setValue]
      split
      · exact wellKeyed.writeBlob document.bag key _
      · exact wellKeyed.setField document.bag key value
  | setMoment document key moment =>
      cases moment with
      | none => exact wellKeyed.setField document.bag key .null
      | some moment =>
          simp only [apply, Document.setMoment]
          cases Calendar.Timestamp.write? moment with
          | none => exact wellKeyed
          | some text => exact wellKeyed.setField document.bag key (.text text)
  | remove document key => exact wellKeyed.removeField document.bag key
  | setBag document bag => exact wellKeyed.writeBlobs bag _

/-! ### Values without sharing -/

namespace Store

/-- Each container of a value stands at one position of it, so a change made at one position is
seen at no other. The containers above it still hold it, and what it holds is its own. -/
structure Unshared (store : Store) (value : Value) : Prop where
  position_unique : ∀ position other ref, store.at? position value = some (.cell ref) →
    store.at? other value = some (.cell ref) → position = other
  stays : ∀ (mutation : Mutation) position,
    store.at? position value = some (.cell mutation.target) →
      ∀ other inner, store.at? other value = some inner → ¬position <+: other →
        (mutation.apply store).at? other value = some inner
  unchanged : ∀ (mutation : Mutation) position,
    store.at? position value = some (.cell mutation.target) →
      ∀ other inner, store.at? other value = some inner → ¬other <+: position →
        (mutation.apply store).unfold inner = store.unfold inner

theorem Laid.unshared {store : Store} {start finish : Nat} {value : Value} {json : Json}
    (laid : store.Laid start finish value json) (present : finish ≤ store.size) :
    store.Unshared value where
  position_unique := fun _ _ _ found foundOther => laid.position_unique found foundOther
  stays := by
    intro mutation position found other inner sought outside
    rw [laid.at?_of_spares present found (mutation.spares store) outside]
    exact sought
  unchanged := by
    intro mutation position found other inner sought elsewhere
    exact laid.unfold_of_spares present found (mutation.spares store) sought elsewhere

end Store

end DocumentStore
