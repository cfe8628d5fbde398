import DocumentStore.Proofs.Engine.Refinement
import DocumentStore.Proofs.Engine.StoredForm
import DocumentStore.Proofs.Heap.Placement

/-!
Contract: which properties of a saved bag are there when the document is loaded.

Owns: the exact condition under which a save keeps the properties of a bag.

Does not own: what takes the place of the blobs in a bag.

The search for blobs starts at the bag itself. A bag with the tag and with an object for data
is taken for a blob, and its description takes the place of all its properties.
-/

set_option autoImplicit false

namespace DocumentStore

/-- A loaded bag has the keys of the saved one in their order, and under each key whose value
holds no blob the same value. -/
def KeepsProperties (saved loaded : List (String × Tree)) : Prop :=
  Table.keys loaded = Table.keys saved
    ∧ ∀ key value, Table.value? saved key = some value → value.BlobFree →
      Table.value? loaded key = some value

theorem fieldwise_toTree (fields : List (String × Json)) :
    Table.Fieldwise (fun value other => other = value.toTree) fields (Json.fieldsToTree fields) := by
  induction fields with
  | nil => exact .nil
  | cons field rest inductionHypothesis =>
      obtain ⟨key, value⟩ := field
      exact .cons rfl inductionHypothesis

/-- A bag is stored with its properties kept exactly when it is not taken for a blob. -/
theorem storedForm_keepsProperties_iff [Machine] {fields : List (String × Tree)}
    (wellKeyed : (Tree.object fields).WellKeyed) {stored : Json}
    (form : (Tree.object fields).storedForm = .ok stored) :
    ∃ loaded, stored.toTree = .object loaded
      ∧ (KeepsProperties fields loaded ↔ ¬Tree.Tagged fields) := by
  by_cases tagged : Tree.Tagged fields
  · obtain ⟨contentType, digest, length, rfl⟩ :=
      Tree.storedForm_object_of_tagged wellKeyed.1 tagged form
    refine ⟨_, rfl, fun keeps => ?_, fun untagged => absurd tagged untagged⟩
    -- the tag of the bag is not among the keys of a description
    have missing : "_type" ∉ Table.keys fields := by
      rw [← keeps.1]
      simp [Json.fieldsToTree]
    rw [← Table.value?_eq_none_iff, tagged.1] at missing
    cases missing
  · obtain ⟨kept, rfl, fieldwise⟩ := Tree.storedForm_object_eq_ok wellKeyed.1 tagged form
    have loaded := fieldwise.comp (fieldwise_toTree kept)
    refine ⟨Json.fieldsToTree kept, rfl, fun _ => tagged, fun _ => ⟨loaded.keys_eq, ?_⟩⟩
    intro key value found blobFree
    obtain ⟨other, foundOther, between, formValue, rfl⟩ := loaded.value?_eq_some found
    have valueWellKeyed := Tree.wellKeyedFields_iff.1 wellKeyed.2 _ (Table.mem_of_value? found)
    rw [foundOther, Tree.toTree_storedForm blobFree valueWellKeyed formValue]

namespace Memory

/-- What is handed out of a version unfolds, wherever it is placed, to the stored form of its bag. -/
theorem IsVersionOf.unfold_record [Machine] {identifier : String} {entry : Entry}
    {stored : StoredDocument} (version : IsVersionOf identifier entry stored) (target : Store) :
    (target.place (record stored).data).2.unfold (target.place (record stored).data).1 =
      stored.data.toTree :=
  Store.unfold_place target (Tree.wellKeyed_storedForm version.form)

/-- A document whose last save was of some bag is loaded with the properties of this bag kept,
exactly when the bag is not taken for a blob. -/
theorem run_keeps_properties_iff [Machine] (requests : List (Request Tree)) (collection : Address)
    (identifier : String) {entry : Entry} {fields : List (String × Tree)}
    (known : Ledger.ofHistory (empty.history requests) (collection, identifier) = some entry)
    (bag : entry.data = .object fields) (wellKeyed : entry.data.WellKeyed) :
    ∃ record, ((empty.afterRun requests).step (.getDocument collection identifier)).1 =
        .answer (.record record)
      ∧ ∀ target : Store, ∃ loaded,
        (target.place record.data).2.unfold (target.place record.data).1 = .object loaded
          ∧ (KeepsProperties fields loaded ↔ ¬Tree.Tagged fields) := by
  obtain ⟨stored, found, version⟩ := (represents_afterRun requests).exists_version known
  have form := version.form
  refine ⟨record stored, ?_, fun target => ?_⟩
  · rw [step, found]
  · rw [bag] at form wellKeyed
    obtain ⟨loaded, unfolded, keeps⟩ := storedForm_keepsProperties_iff wellKeyed form
    exact ⟨loaded, (version.unfold_record target).trans unfolded, keeps⟩

/-- A collection to try things in. -/
def notes : Address :=
  ⟨"doclite", "_default", "notes"⟩

/-- A bag without blobs. -/
def plainFields : List (String × Tree) :=
  [("title", .text "Holidays"), ("days", .array [.integer 3, .double (.zero true)])]

theorem plain_bag_is_kept :
    ∃ entry, Ledger.ofHistory (empty.history [.save notes "trip" (.object plainFields) none 0])
        (notes, "trip") = some entry ∧ entry.data = .object plainFields ∧ entry.data.WellKeyed
      ∧ ∃ record, ((empty.afterRun [.save notes "trip" (.object plainFields) none 0]).step
          (.getDocument notes "trip")).1 = .answer (.record record)
        ∧ ∀ target : Store, ∃ loaded,
          (target.place record.data).2.unfold (target.place record.data).1 = .object loaded
            ∧ (KeepsProperties plainFields loaded ↔ ¬Tree.Tagged plainFields) := by
  have form : (Tree.object plainFields).storedForm =
      .ok (.object [("title", .text "Holidays"), ("days", .array [.integer 3, .double (.zero true)])]) := by
    rw [Tree.storedForm, Tree.throughText_eq]
    rfl
  obtain ⟨entry, known, bag, _⟩ := exists_entry_of_save [] form rfl
  have wellKeyed : entry.data.WellKeyed := by
    rw [bag]
    exact ⟨by simp [Table.Distinct, plainFields], trivial, ⟨trivial, trivial, trivial⟩, trivial⟩
  exact ⟨entry, known, bag, wellKeyed, run_keeps_properties_iff _ _ _ known bag wellKeyed⟩

/-- A bag whose own properties look like those of a blob. -/
def taggedFields : List (String × Tree) :=
  [("_type", .text "blob"), ("data", .object []), ("title", .text "Holidays")]

theorem tagged_bag_is_not_kept :
    ∃ entry, Ledger.ofHistory (empty.history [.save notes "trip" (.object taggedFields) none 0])
        (notes, "trip") = some entry ∧ entry.data = .object taggedFields ∧ entry.data.WellKeyed
      ∧ ∃ record, ((empty.afterRun [.save notes "trip" (.object taggedFields) none 0]).step
          (.getDocument notes "trip")).1 = .answer (.record record)
        ∧ ∃ loaded,
          (Store.empty.place record.data).2.unfold (Store.empty.place record.data).1 = .object loaded
            ∧ Table.keys loaded = ["@type", "content_type", "digest", "length"]
            ∧ ¬KeepsProperties taggedFields loaded := by
  have form : (Tree.object taggedFields).storedForm =
      .ok (Tree.description .null (.text (Digest.contentDigest [])) (.integer 0)) := by
    rw [Tree.storedForm, Tree.throughText_eq]
    rfl
  obtain ⟨entry, known, bag, _⟩ := exists_entry_of_save [] form rfl
  obtain ⟨stored, found, version⟩ := (represents_afterRun _).exists_version known
  have wellKeyed : entry.data.WellKeyed := by
    rw [bag]
    exact ⟨by simp [Table.Distinct, taggedFields], trivial, ⟨List.nodup_nil, trivial⟩, trivial, trivial⟩
  refine ⟨entry, known, bag, wellKeyed, record stored, ?_, ?_⟩
  · simp only [List.nil_append] at found
    rw [step, found]
  · have same := version.form
    rw [bag, form] at same
    refine ⟨_, (version.unfold_record Store.empty).trans (congrArg Json.toTree (Except.ok.inj same).symm),
      rfl, fun keeps => ?_⟩
    have keys := keeps.1
    simp [taggedFields, Json.toTree, Json.fieldsToTree] at keys

end Memory

end DocumentStore
