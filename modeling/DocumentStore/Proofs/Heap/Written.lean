import DocumentStore.Proofs.Json.Copy
import DocumentStore.Proofs.Heap.Placement
import DocumentStore.Blob

/-!
Contract: which values of a store are written as which JSON trees.

Owns: the form of a blob in a bag as a JSON tree, the relation between values and the trees they
are written as, and that the text of a value is the text of this tree.

Does not own: values that have no JSON tree.

A derivation of `Written` is finite, so no container that it meets lies inside itself; one that
several positions share is met at each of them. On the way down a path the trees get smaller
while the containers stay the same, which is why none of them comes twice and the path ends
within as many steps as there are cells.
-/

set_option autoImplicit false

namespace DocumentStore

/-- The JSON tree of the form in which a bag holds a blob. The content type is a text; a blob
with a digest only needs a text for the digest and an integer for the length. -/
def Blob.form? : Blob → Option Json
  | ⟨.text type, some content, _, _⟩ => some (Tree.taggedContent (.text type) content)
  | ⟨.text type, none, _, .null⟩ => some (Tree.taggedContent (.text type) [])
  | ⟨.text type, none, .integer length, .text digest⟩ =>
      if digitCount length ≤ digitLimit then
        some (Tree.description (.text type) (.text digest) (.integer length))
      else none
  | _ => none

theorem Blob.wellKeyed_form {blob : Blob} {json : Json} (form : blob.form? = some json) :
    json.WellKeyed := by
  unfold Blob.form? at form
  split at form
  · cases form
    apply Tree.wellKeyed_taggedContent
    exact trivial
  · cases form
    apply Tree.wellKeyed_taggedContent
    exact trivial
  · split at form
    · cases form
      exact Tree.wellKeyed_description trivial trivial trivial
    · cases form
  · cases form

namespace Store

mutual

/-- A value of a store is written as a JSON tree. -/
inductive Written (store : Store) : Value → Json → Prop where
  | null : Written store .null .null
  | boolean (value : Bool) : Written store (.boolean value) (.boolean value)
  | integer {value : Int} (short : digitCount value ≤ digitLimit) :
      Written store (.integer value) (.integer value)
  | double (value : Double) : Written store (.double value) (.double value)
  | text (value : String) : Written store (.text value) (.text value)
  | array {ref : Ref} {items : List Value} {jsons : List Json}
      (read : store.read? ref = some (.array items)) (each : WrittenItems store items jsons) :
      Written store (.cell ref) (.array jsons)
  | object {ref : Ref} {fields : Table String Value} {jsons : List (String × Json)}
      (read : store.read? ref = some (.object fields)) (distinct : Table.Distinct fields)
      (each : WrittenFields store fields jsons) : Written store (.cell ref) (.object jsons)
  | blob {ref : Ref} {blob : Blob} {json : Json} (read : store.read? ref = some (.blob blob))
      (form : blob.form? = some json) : Written store (.cell ref) json

inductive WrittenItems (store : Store) : List Value → List Json → Prop where
  | nil : WrittenItems store [] []
  | cons {item : Value} {json : Json} {rest : List Value} {others : List Json}
      (first : Written store item json) (remaining : WrittenItems store rest others) :
      WrittenItems store (item :: rest) (json :: others)

inductive WrittenFields (store : Store) :
    List (String × Value) → List (String × Json) → Prop where
  | nil : WrittenFields store [] []
  | cons {key : String} {value : Value} {json : Json} {rest : List (String × Value)}
      {others : List (String × Json)}
      (first : Written store value json) (remaining : WrittenFields store rest others) :
      WrittenFields store ((key, value) :: rest) ((key, json) :: others)

end

variable {store : Store}

theorem WrittenFields.keys_eq {fields : List (String × Value)} {jsons : List (String × Json)}
    (written : store.WrittenFields fields jsons) : Table.keys jsons = Table.keys fields := by
  cases written with
  | nil => rfl
  | cons first remaining => simp [remaining.keys_eq]

/-! ### One tree for each value -/

mutual

theorem Written.unique {value : Value} {json other : Json} (left : store.Written value json)
    (right : store.Written value other) : json = other := by
  cases left with
  | array read each =>
      cases right with
      | array readOther eachOther =>
          cases read.symm.trans readOther
          rw [each.unique eachOther]
      | object readOther => cases read.symm.trans readOther
      | blob readOther => cases read.symm.trans readOther
  | object read distinct each =>
      cases right with
      | object readOther _ eachOther =>
          cases read.symm.trans readOther
          rw [each.unique eachOther]
      | array readOther => cases read.symm.trans readOther
      | blob readOther => cases read.symm.trans readOther
  | blob read form =>
      cases right with
      | blob readOther formOther =>
          cases read.symm.trans readOther
          exact Option.some.inj (form.symm.trans formOther)
      | array readOther => cases read.symm.trans readOther
      | object readOther => cases read.symm.trans readOther
  | _ =>
      cases right
      rfl

theorem WrittenItems.unique {items : List Value} {jsons others : List Json}
    (left : store.WrittenItems items jsons) (right : store.WrittenItems items others) :
    jsons = others := by
  cases left with
  | nil =>
      cases right
      rfl
  | cons first remaining =>
      cases right with
      | cons otherFirst otherRemaining =>
          rw [first.unique otherFirst, remaining.unique otherRemaining]

theorem WrittenFields.unique {fields : List (String × Value)} {jsons others : List (String × Json)}
    (left : store.WrittenFields fields jsons) (right : store.WrittenFields fields others) :
    jsons = others := by
  cases left with
  | nil =>
      cases right
      rfl
  | cons first remaining =>
      cases right with
      | cons otherFirst otherRemaining =>
          rw [first.unique otherFirst, remaining.unique otherRemaining]

end

/-! ### Paths -/

/-- The containers of a path come once each, and all of them are written as more than what lies
below. -/
structure Descends (store : Store) (path : List Ref) (below : Nat) : Prop where
  nodup : path.Nodup
  larger : ∀ ref ∈ path, ∃ json, store.Written (.cell ref) json ∧ below < sizeOf json

theorem lt_size_of_written {ref : Ref} {json : Json} (written : store.Written (.cell ref) json) :
    ref < store.size := by
  cases written with
  | array read => exact lt_size_of_read? read
  | object read => exact lt_size_of_read? read
  | blob read => exact lt_size_of_read? read

namespace Descends

variable {path : List Ref} {below : Nat} {ref : Ref} {json : Json}

theorem start (below : Nat) : store.Descends [] below := by
  constructor
  · exact List.nodup_nil
  · intro ref member
    cases member

theorem mono {less : Nat} (descends : store.Descends path below) (smaller : less ≤ below) :
    store.Descends path less := by
  refine ⟨descends.nodup, ?_⟩
  intro ref member
  obtain ⟨json, written, larger⟩ := descends.larger ref member
  exact ⟨json, written, Nat.lt_of_le_of_lt smaller larger⟩

theorem not_mem (descends : store.Descends path (sizeOf json))
    (written : store.Written (.cell ref) json) : ref ∉ path := by
  intro member
  obtain ⟨outer, writtenOuter, larger⟩ := descends.larger ref member
  rw [written.unique writtenOuter] at larger
  exact Nat.lt_irrefl _ larger

theorem enter (descends : store.Descends path (sizeOf json))
    (written : store.Written (.cell ref) json) (smaller : below < sizeOf json) :
    store.Descends (ref :: path) below := by
  constructor
  · exact List.nodup_cons.2 ⟨descends.not_mem written, descends.nodup⟩
  · intro other member
    rcases List.mem_cons.1 member with rfl | old
    · exact ⟨json, written, smaller⟩
    · exact (descends.mono (Nat.le_of_lt smaller)).larger other old

/-- A path never has more containers than there are cells. -/
theorem length_lt (descends : store.Descends path (sizeOf json))
    (written : store.Written (.cell ref) json) : path.length < store.size := by
  have nodup : (ref :: path).Nodup := List.nodup_cons.2 ⟨descends.not_mem written, descends.nodup⟩
  have bounded : (ref :: path) ⊆ List.range store.size := by
    intro other member
    apply List.mem_range.2
    rcases List.mem_cons.1 member with rfl | old
    · exact lt_size_of_written written
    · obtain ⟨outer, writtenOuter, _⟩ := descends.larger other old
      exact lt_size_of_written writtenOuter
  have counted := (List.subperm_of_subset nodup bounded).length_le
  rw [List.length_range] at counted
  exact counted

end Descends

/-! ### The tree of a written value -/

section Conversion

variable {blobs : Bool}

theorem toJson_array_of_items {items : List Tree} {jsons : List Json}
    (converted : Tree.itemsToJson blobs items = .ok jsons) :
    (Tree.array items).toJson blobs = .ok (.array jsons) := by
  show (do return .array (← Tree.itemsToJson blobs items) : Except Failure Json) = _
  rw [converted]
  rfl

theorem toJson_object_of_fields {fields : List (String × Tree)} {jsons : List (String × Json)}
    (converted : Tree.fieldsToJson blobs fields = .ok jsons) :
    (Tree.object fields).toJson blobs = .ok (.object jsons) := by
  show (do return .object (← Tree.fieldsToJson blobs fields) : Except Failure Json) = _
  rw [converted]
  rfl

theorem itemsToJson_cons_of_ok {item : Tree} {rest : List Tree} {json : Json} {jsons : List Json}
    (first : item.toJson blobs = .ok json) (others : Tree.itemsToJson blobs rest = .ok jsons) :
    Tree.itemsToJson blobs (item :: rest) = .ok (json :: jsons) := by
  show (do
    let json ← item.toJson blobs
    let jsons ← Tree.itemsToJson blobs rest
    return json :: jsons : Except Failure (List Json)) = _
  rw [first, others]
  rfl

theorem fieldsToJson_cons_of_ok {key : String} {value : Tree} {rest : List (String × Tree)}
    {json : Json} {jsons : List (String × Json)} (first : value.toJson blobs = .ok json)
    (others : Tree.fieldsToJson blobs rest = .ok jsons) :
    Tree.fieldsToJson blobs ((key, value) :: rest) = .ok ((key, json) :: jsons) := by
  show (do
    let json ← value.toJson blobs
    let jsons ← Tree.fieldsToJson blobs rest
    return (key, json) :: jsons : Except Failure (List (String × Json))) = _
  rw [first, others]
  rfl

end Conversion

/-- The tree of a blob is converted to the form in which a bag holds the blob. -/
theorem toJson_unfoldWithin_blob {ref : Ref} {blob : Blob} {json : Json} {path : List Ref}
    (steps : Nat) (fresh : ref ∉ path) (read : store.read? ref = some (.blob blob))
    (form : blob.form? = some json) :
    (store.unfoldWithin true (steps + 1) path (.cell ref)).toJson true = .ok json := by
  rw [unfoldWithin, if_neg fresh, read]
  obtain ⟨contentType, content, length, digest⟩ := blob
  unfold Blob.form? at form
  split at form
  · next type content length digest same =>
      cases same
      cases form
      cases steps <;> rfl
  · next type length same =>
      cases same
      cases form
      cases steps <;> rfl
  · next type length digest same =>
      cases same
      split at form
      · next short =>
          cases form
          have written : Tree.toJson true (.integer length) = .ok (.integer length) :=
            if_neg (Nat.not_lt.2 short)
          have stepwise : (do
              let length ← Tree.toJson true (.integer length)
              return Tree.description (.text type) (.text digest) length : Except Failure Json) =
                .ok (Tree.description (.text type) (.text digest) (.integer length)) := by
            rw [written]
            rfl
          cases steps <;> exact stepwise
      · cases form
  · cases form

mutual

theorem Written.toJson_unfoldWithin {value : Value} {json : Json} (written : store.Written value json)
    {steps : Nat} {path : List Ref} (descends : store.Descends path (sizeOf json))
    (enough : store.size ≤ steps + path.length) :
    (store.unfoldWithin true steps path value).toJson true = .ok json := by
  have whole := written
  cases written with
  | integer short => cases steps <;> exact if_neg (Nat.not_lt.2 short)
  | array read each =>
      have shorter := descends.length_lt whole
      obtain ⟨steps, rfl⟩ : ∃ fewer, steps = fewer + 1 := ⟨steps - 1, by omega⟩
      rw [unfoldWithin_array true steps (descends.not_mem whole) read]
      apply toJson_array_of_items
      apply each.toJson_unfoldWithin (descends.enter whole (by simp))
      rw [List.length_cons]
      omega
  | object read distinct each =>
      have shorter := descends.length_lt whole
      obtain ⟨steps, rfl⟩ : ∃ fewer, steps = fewer + 1 := ⟨steps - 1, by omega⟩
      rw [unfoldWithin_object true steps (descends.not_mem whole) read]
      apply toJson_object_of_fields
      apply each.toJson_unfoldWithin (descends.enter whole (by simp))
      rw [List.length_cons]
      omega
  | blob read form =>
      have shorter := descends.length_lt whole
      obtain ⟨steps, rfl⟩ : ∃ fewer, steps = fewer + 1 := ⟨steps - 1, by omega⟩
      exact toJson_unfoldWithin_blob steps (descends.not_mem whole) read form
  | _ => cases steps <;> rfl

theorem WrittenItems.toJson_unfoldWithin {items : List Value} {jsons : List Json}
    (written : store.WrittenItems items jsons) {steps : Nat} {path : List Ref}
    (descends : store.Descends path (sizeOf jsons)) (enough : store.size ≤ steps + path.length) :
    Tree.itemsToJson true (items.map (store.unfoldWithin true steps path)) = .ok jsons := by
  cases written with
  | nil => rfl
  | cons first remaining =>
      apply itemsToJson_cons_of_ok
      · exact first.toJson_unfoldWithin (descends.mono (by simp; omega)) enough
      · exact remaining.toJson_unfoldWithin (descends.mono (by simp)) enough

theorem WrittenFields.toJson_unfoldWithin {fields : List (String × Value)}
    {jsons : List (String × Json)} (written : store.WrittenFields fields jsons) {steps : Nat}
    {path : List Ref} (descends : store.Descends path (sizeOf jsons))
    (enough : store.size ≤ steps + path.length) :
    Tree.fieldsToJson true
        (fields.map fun field => (field.1, store.unfoldWithin true steps path field.2)) =
      .ok jsons := by
  cases written with
  | nil => rfl
  | cons first remaining =>
      apply fieldsToJson_cons_of_ok
      · exact first.toJson_unfoldWithin (descends.mono (by simp; omega)) enough
      · exact remaining.toJson_unfoldWithin (descends.mono (by simp)) enough

end

mutual

theorem Written.wellKeyed {value : Value} {json : Json} (written : store.Written value json) :
    json.WellKeyed := by
  cases written with
  | array read each => exact each.wellKeyed
  | object read distinct each =>
      refine ⟨?_, each.wellKeyed⟩
      rw [Table.Distinct, each.keys_eq]
      exact distinct
  | blob read form => exact Blob.wellKeyed_form form
  | _ => exact trivial

theorem WrittenItems.wellKeyed {items : List Value} {jsons : List Json}
    (written : store.WrittenItems items jsons) : Json.WellKeyedItems jsons := by
  cases written with
  | nil => exact trivial
  | cons first remaining => exact ⟨first.wellKeyed, remaining.wellKeyed⟩

theorem WrittenFields.wellKeyed {fields : List (String × Value)} {jsons : List (String × Json)}
    (written : store.WrittenFields fields jsons) : Json.WellKeyedFields jsons := by
  cases written with
  | nil => exact trivial
  | cons first remaining => exact ⟨first.wellKeyed, remaining.wellKeyed⟩

end

/-- The text of a value that is written as a tree is the text of this tree. -/
theorem Written.throughText {value : Value} {json : Json} (written : store.Written value json) :
    (store.unfold value).throughText true = .ok json := by
  have converted : (store.unfold value).toJson true = .ok json :=
    written.toJson_unfoldWithin (.start _) (Nat.le_add_right _ _)
  rw [Tree.throughText_eq, converted]
  exact congrArg Except.ok (Json.merged_of_wellKeyed json written.wellKeyed)

end Store

end DocumentStore
