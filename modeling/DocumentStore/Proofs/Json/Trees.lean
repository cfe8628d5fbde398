import DocumentStore.Proofs.Heap.Written

/-!
Contract: a JSON tree as a value has itself for its JSON tree.

Owns: the trees that stay readable when repeated keys are merged, the conversion of JSON trees that
were made values, whether blobs are admitted or not, and the text they are carried through.

Does not own: the placement of a tree in a store.
-/

set_option autoImplicit false

namespace DocumentStore

namespace Json

theorem readableFields_iff {fields : List (String × Json)} :
    ReadableFields fields ↔ ∀ field ∈ fields, field.2.Readable := by
  induction fields with
  | nil => simp [ReadableFields]
  | cons field rest inductionHypothesis =>
      obtain ⟨key, value⟩ := field
      simp [ReadableFields, inductionHypothesis]

theorem readableFields_ofEntries {entries : List (String × Json)}
    (readable : ReadableFields entries) : ReadableFields (Table.ofEntries entries) := by
  rw [readableFields_iff] at readable ⊢
  intro field member
  have listed := Table.mem_values_ofEntries (List.mem_map_of_mem member)
  obtain ⟨entry, entryMember, same⟩ := List.mem_map.1 listed
  rw [← same]
  exact readable entry entryMember

mutual

theorem readable_merged (json : Json) (readable : json.Readable) : json.merged.Readable := by
  cases json with
  | integer value => exact readable
  | array items => exact readableItems_mergedItems items readable
  | object fields => exact readableFields_ofEntries (readableFields_mergedFields fields readable)
  | _ => exact trivial

theorem readableItems_mergedItems (items : List Json) (readable : ReadableItems items) :
    ReadableItems (mergedItems items) := by
  cases items with
  | nil => exact trivial
  | cons item rest =>
      exact ⟨readable_merged item readable.1, readableItems_mergedItems rest readable.2⟩

theorem readableFields_mergedFields (fields : List (String × Json)) (readable : ReadableFields fields) :
    ReadableFields (mergedFields fields) := by
  cases fields with
  | nil => exact trivial
  | cons field rest =>
      obtain ⟨key, value⟩ := field
      exact ⟨readable_merged value readable.1, readableFields_mergedFields rest readable.2⟩

end

end Json

namespace Tree

mutual

/-- The value of a readable tree is converted back to the tree. -/
theorem toJson_of_readable (blobs : Bool) (json : Json) (readable : json.Readable) :
    json.toTree.toJson blobs = .ok json := by
  cases json with
  | integer value => exact if_neg (Nat.not_lt.2 readable)
  | array items =>
      exact Store.toJson_array_of_items (itemsToJson_of_readable blobs items readable)
  | object fields =>
      exact Store.toJson_object_of_fields (fieldsToJson_of_readable blobs fields readable)
  | _ => rfl

theorem itemsToJson_of_readable (blobs : Bool) (items : List Json)
    (readable : Json.ReadableItems items) :
    itemsToJson blobs (Json.itemsToTree items) = .ok items := by
  cases items with
  | nil => rfl
  | cons item rest =>
      exact Store.itemsToJson_cons_of_ok (toJson_of_readable blobs item readable.1)
        (itemsToJson_of_readable blobs rest readable.2)

theorem fieldsToJson_of_readable (blobs : Bool) (fields : List (String × Json))
    (readable : Json.ReadableFields fields) :
    fieldsToJson blobs (Json.fieldsToTree fields) = .ok fields := by
  cases fields with
  | nil => rfl
  | cons field rest =>
      obtain ⟨key, value⟩ := field
      exact Store.fieldsToJson_cons_of_ok (toJson_of_readable blobs value readable.1)
        (fieldsToJson_of_readable blobs rest readable.2)

end

/-- The copy through text changes nothing of a readable tree without repeated keys. -/
theorem throughText_of_readable (blobs : Bool) {json : Json} (readable : json.Readable)
    (wellKeyed : json.WellKeyed) : json.toTree.throughText blobs = .ok json := by
  rw [throughText_eq, toJson_of_readable blobs json readable]
  exact congrArg Except.ok (Json.merged_of_wellKeyed json wellKeyed)

end Tree

end DocumentStore
