import DocumentStore.Proofs.Engine.Forms
import DocumentStore.Proofs.Json.Acceptance
import DocumentStore.Proofs.Workspace.Requests
import DocumentStore.Workspace.Methods

/-!
Contract: the texts of blobs.

Owns: which texts describe a blob, that exactly these are read as a blob and which blob it is, that
all others are refused in one way, and the way of a blob through its dictionary.

Does not own: which complaint a refusal carries.

What is read is a tree with repeated keys merged, in which the last value of a key counts. The items
of a list are judged as they are spelled, since merging leaves numbers and truth values alone.
-/

set_option autoImplicit false

namespace DocumentStore

/-! ### Lists of bytes -/

/-- A value of a text stands for a byte: as its number, or as a truth value. -/
inductive Json.IsByte : Json → UInt8 → Prop where
  | number (byte : UInt8) : IsByte (.integer byte.toNat) byte
  | truth (value : Bool) : IsByte (.boolean value) (if value then 1 else 0)

namespace Tree

theorem byte_toTree_eq_ok_iff {item : Json} {byte : UInt8} :
    item.toTree.byte = .ok byte ↔ item.IsByte byte := by
  constructor
  · intro accepted
    cases item with
    | boolean value =>
        cases accepted
        exact .truth value
    | integer value =>
        rw [Json.toTree, Tree.byte] at accepted
        split at accepted
        · next bounds =>
            have size : (UInt8.ofNat value.toNat).toNat = value.toNat :=
              Nat.mod_eq_of_lt (by show value.toNat < 256; omega)
            have same : value = ((UInt8.ofNat value.toNat).toNat : Int) := by
              rw [size, Int.toNat_of_nonneg bounds.1]
            cases accepted
            rw [same]
            exact size.symm ▸ .number _
        · cases accepted
    | _ => cases accepted
  · rintro (_ | _)
    · have bound := byte.toNat_lt
      rw [Json.toTree, Tree.byte, if_pos (by omega), Int.toNat_natCast, UInt8.ofNat_toNat]
    · rfl

theorem mapM_byte_eq_ok_iff {items : List Json} {content : Digest.Bytes} :
    (Json.itemsToTree items).mapM byte = .ok content ↔ List.Forall₂ Json.IsByte items content := by
  induction items generalizing content with
  | nil =>
      rw [List.forall₂_nil_left_iff]
      exact ⟨fun same => (Except.ok.inj same).symm, fun same => by rw [same]; rfl⟩
  | cons item rest inductionHypothesis =>
      rw [Json.itemsToTree, List.mapM_cons, bind_eq_ok, List.forall₂_cons_left_iff]
      simp only [bind_eq_ok, byte_toTree_eq_ok_iff, inductionHypothesis]
      constructor
      · rintro ⟨byte, first, bytes, others, same⟩
        exact ⟨byte, bytes, first, others, (Except.ok.inj same).symm⟩
      · rintro ⟨byte, bytes, first, others, same⟩
        exact ⟨byte, first, bytes, others, congrArg Except.ok same.symm⟩

end Tree

namespace Json

/-- Merging repeated keys leaves whatever stands for a byte as it is. -/
theorem isByte_merged_iff {item : Json} {byte : UInt8} : item.merged.IsByte byte ↔ item.IsByte byte := by
  cases item with
  | array items | object fields => exact ⟨nofun, nofun⟩
  | _ => exact .rfl

theorem forall₂_isByte_mergedItems_iff {items : List Json} {content : Digest.Bytes} :
    List.Forall₂ IsByte (mergedItems items) content ↔ List.Forall₂ IsByte items content := by
  induction items generalizing content with
  | nil => exact .rfl
  | cons item rest inductionHypothesis =>
      simp only [mergedItems, List.forall₂_cons_left_iff, isByte_merged_iff, inductionHypothesis]

section Shapes

variable {json : Json} {last : Option Json}

theorem merged_eq_object {fields : List (String × Json)} (same : json.merged = .object fields) :
    ∃ raw, json = .object raw ∧ fields = Table.ofEntries (mergedFields raw) := by
  cases json with
  | object raw => exact ⟨raw, rfl, (Json.object.inj same).symm⟩
  | _ => cases same

theorem map_merged_eq_text {text : String} (same : last.map merged = some (.text text)) :
    last = some (.text text) := by
  obtain ⟨json, found, merges⟩ := Option.map_eq_some_iff.1 same
  cases json with
  | text given => exact found.trans (congrArg some merges)
  | _ => cases merges

theorem map_merged_eq_array {items : List Json} (same : last.map merged = some (.array items)) :
    ∃ raw, last = some (.array raw) ∧ items = mergedItems raw := by
  obtain ⟨json, found, merges⟩ := Option.map_eq_some_iff.1 same
  cases json with
  | array raw => exact ⟨raw, found, (Json.array.inj merges).symm⟩
  | _ => cases merges

end Shapes

/-- The last value that is given for a key, with repeated keys inside it merged. -/
theorem value?_ofEntries_mergedFields (fields : List (String × Json)) (key : String) :
    Table.value? (Table.ofEntries (mergedFields fields)) key =
      (Table.value? fields.reverse key).map merged := by
  rw [Table.value?_ofEntries, mergedFields_eq_map, ← List.map_reverse, Table.value?_map]

end Json

/-! ### Texts that describe a blob -/

namespace Blob

/-- A text describes a blob of some type and content: it spells an object whose last content type is
this type, a text and not empty, and whose last bytes are a list of what stands for the content. -/
def Describes (text type : String) (content : Digest.Bytes) : Prop :=
  ∃ fields items, Json.SpelledBy (.object fields) text
    ∧ Table.value? fields.reverse "contentType" = some (.text type) ∧ type ≠ ""
    ∧ Table.value? fields.reverse "bytes" = some (.array items)
    ∧ List.Forall₂ Json.IsByte items content

/-- What the checks of a tree let pass: an object with a content type and a list of bytes. -/
theorem read_eq_ok_iff_passes {text : String} {blob : Blob} :
    Blob.read text = .ok blob ↔
      ∃ fields type items content, Json.read text = .ok (.object fields)
        ∧ Table.value? fields "contentType" = some (.text type) ∧ type ≠ ""
        ∧ Table.value? fields "bytes" = some (.array items)
        ∧ List.Forall₂ Json.IsByte items content ∧ blob = ofContent (.text type) (some content) := by
  constructor
  · intro accepted
    unfold Blob.read at accepted
    split at accepted
    · cases accepted
    · next fields readJson =>
        split at accepted
        · next type typed =>
            split at accepted
            · cases accepted
            · next named =>
                split at accepted
                · next items listed =>
                    split at accepted
                    · next content converted =>
                        cases accepted
                        exact ⟨fields, type, items, content, readJson, typed, named, listed,
                          Tree.mapM_byte_eq_ok_iff.1 converted, rfl⟩
                    · cases accepted
                · cases accepted
        · cases accepted
    · cases accepted
  · rintro ⟨fields, type, items, content, readJson, typed, named, listed, bytes, rfl⟩
    have converted : (Json.itemsToTree items).mapM Tree.byte = .ok content :=
      Tree.mapM_byte_eq_ok_iff.2 bytes
    rw [Blob.read, readJson]
    simp only [typed, if_neg named, listed, converted]

/-- Exactly the texts that describe a blob are read as one, and as the blob that they describe. -/
theorem read_eq_ok_iff {text : String} {blob : Blob} :
    Blob.read text = .ok blob ↔
      ∃ type content, Describes text type content ∧ blob = ofContent (.text type) (some content) := by
  rw [read_eq_ok_iff_passes]
  constructor
  · rintro ⟨merged, type, others, content, readJson, typed, named, listed, bytes, rfl⟩
    obtain ⟨raw, spelled, same⟩ := Json.read_eq_ok_iff.1 readJson
    obtain ⟨fields, rfl, rfl⟩ := Json.merged_eq_object same.symm
    rw [Json.value?_ofEntries_mergedFields] at typed listed
    obtain ⟨items, given, rfl⟩ := Json.map_merged_eq_array listed
    exact ⟨type, content, ⟨fields, items, spelled, Json.map_merged_eq_text typed, named, given,
      Json.forall₂_isByte_mergedItems_iff.1 bytes⟩, rfl⟩
  · rintro ⟨type, content, ⟨fields, items, spelled, typed, named, listed, bytes⟩, rfl⟩
    refine ⟨_, type, Json.mergedItems items, content,
      Json.read_eq_ok_iff.2 ⟨.object fields, spelled, rfl⟩, ?_, named, ?_,
      Json.forall₂_isByte_mergedItems_iff.2 bytes, rfl⟩
    · rw [Json.value?_ofEntries_mergedFields, typed]
      rfl
    · rw [Json.value?_ofEntries_mergedFields, listed]
      rfl

end Blob

/-! ### Blobs that are made -/

namespace Action

variable {workspace : Workspace}

theorem run_placeBlob (workspace : Workspace) (blob : Blob) :
    ∃ value after, (place blob.draft).run.run workspace = (.ok value, after)
      ∧ after.store.blob? value = some blob :=
  ⟨_, _, rfl, Store.blob?_eq_some_iff.2 ⟨_, rfl, Store.read?_allocate_self workspace.store (.blob blob)⟩⟩

theorem run_readBlob {text : String} {blob : Blob} (accepted : Blob.read text = .ok blob) :
    ∃ value after, (readBlob text).run.run workspace = (.ok value, after)
      ∧ after.store.blob? value = some blob := by
  rw [readBlob, accepted]
  exact run_placeBlob workspace blob

theorem run_readBlob_of_error {text : String} {fault : BlobTextFault}
    (refused : Blob.read text = .error fault) :
    (readBlob text).run.run workspace = (.error (.malformedBlob fault), workspace) := by
  rw [readBlob, refused]
  rfl

/-- What a method of a blob does. -/
theorem run_call_of_blob [Machine] {value : Value} {blob : Blob}
    (held : workspace.store.blob? value = some blob) (method : String) (arguments : List Object) :
    (call (.value value) method arguments).run.run workspace =
      (callBlob blob method arguments).run.run workspace := by
  rw [call, run_bind, run_get]
  dsimp only
  rw [held]

/-- A blob is made again, with its type and its content, from the dictionary that it is made into. -/
theorem run_from_dictionary [Machine] {value type : Value} {content : Digest.Bytes}
    (held : workspace.store.blob? value = some (.ofContent type (some content))) :
    ∃ dictionary between again after,
      (call (.value value) "to_dictionary" []).run.run workspace =
          (.ok (some (.value dictionary)), between)
        ∧ (call (.value value) "from_dictionary" [.value dictionary]).run.run between =
          (.ok (some (.value again)), after)
        ∧ after.store.blob? again = some (.ofContent type (some content)) := by
  let blob := Blob.ofContent type (some content)
  let between := { workspace with store := (workspace.store.place blob.dictionary).2 }
  let dictionary := (workspace.store.place blob.dictionary).1
  have still : between.store.blob? value = some blob := by
    obtain ⟨ref, rfl, read⟩ := Store.blob?_eq_some_iff.1 held
    exact Store.blob?_eq_some_iff.2 ⟨ref, rfl, Store.extends_place _ blob.dictionary ref _ read⟩
  have holds : between.store.Holds blob.dictionary dictionary :=
    Store.holds_place blob.dictionary blob.isCopy_dictionary ((Store.Extends.refl _).retains _)
  obtain ⟨fields, object, reading⟩ := Store.blobOfDictionary_of_holds holds
  obtain ⟨again, after, placing, made⟩ := run_placeBlob between blob
  refine ⟨dictionary, between, again, after, ?_, ?_, made⟩
  · rw [run_call_of_blob held]
    rfl
  · rw [run_call_of_blob still, callBlob]
    simp only [run_bind, run_get, object, blobOfDictionary]
    rw [run_consult reading]
    dsimp only
    rw [show Blob.ofContent blob.contentType (some (blob.content.getD [])) = blob from rfl, placing]
    rfl

/-- A blob is read exactly from the texts that describe one. It has the type and the content of the
description, the length of this content and no digest, and it is made again from its dictionary. All
other texts are refused as malformed, which changes nothing. -/
theorem blobs_are_read_as_described [Machine] (text : String) (workspace : Workspace) :
    ((∃ value after, (readBlob text).run.run workspace = (.ok value, after))
        ↔ ∃ type content, Blob.Describes text type content)
      ∧ (∀ type content, Blob.Describes text type content →
          ∃ value after, (readBlob text).run.run workspace = (.ok value, after)
            ∧ after.store.blob? value =
              some ⟨.text type, some content, .integer content.length, .null⟩
            ∧ ∃ dictionary between again last,
              (call (.value value) "to_dictionary" []).run.run after =
                  (.ok (some (.value dictionary)), between)
                ∧ (call (.value value) "from_dictionary" [.value dictionary]).run.run between =
                  (.ok (some (.value again)), last)
                ∧ last.store.blob? again =
                  some ⟨.text type, some content, .integer content.length, .null⟩)
      ∧ ((¬∃ type content, Blob.Describes text type content) →
          ∃ fault, (readBlob text).run.run workspace = (.error (.malformedBlob fault), workspace)) := by
  have described : ∀ type content, Blob.Describes text type content →
      ∃ value after, (readBlob text).run.run workspace = (.ok value, after)
        ∧ after.store.blob? value = some (.ofContent (.text type) (some content)) :=
    fun type content describes => run_readBlob (Blob.read_eq_ok_iff.2 ⟨type, content, describes, rfl⟩)
  have others : (¬∃ type content, Blob.Describes text type content) →
      ∃ fault, (readBlob text).run.run workspace = (.error (.malformedBlob fault), workspace) := by
    intro undescribed
    cases reading : Blob.read text with
    | ok blob =>
        obtain ⟨type, content, describes, _⟩ := Blob.read_eq_ok_iff.1 reading
        exact absurd ⟨type, content, describes⟩ undescribed
    | error fault => exact ⟨fault, run_readBlob_of_error reading⟩
  refine ⟨⟨?_, ?_⟩, ?_, others⟩
  · rintro ⟨value, after, read⟩
    apply Classical.byContradiction
    intro undescribed
    obtain ⟨fault, refused⟩ := others undescribed
    rw [refused] at read
    cases read
  · rintro ⟨type, content, describes⟩
    obtain ⟨value, after, read, _⟩ := described type content describes
    exact ⟨value, after, read⟩
  · intro type content describes
    obtain ⟨value, after, read, held⟩ := described type content describes
    exact ⟨value, after, read, held, run_from_dictionary held⟩

/-- The characters of a text that gives its bytes twice, at last as a truth value and a number. -/
def repeatedBytes : List Char :=
  ['\x7b', '"', 'b', 'y', 't', 'e', 's', '"', ':', '7', ',', '"', 'c', 'o', 'n', 't', 'e', 'n', 't',
    'T', 'y', 'p', 'e', '"', ':', '"', 'a', '"', ',', '"', 'b', 'y', 't', 'e', 's', '"', ':', '[',
    't', 'r', 'u', 'e', ',', '2', '5', '5', ']', '\x7d']

/-- The characters of a text with a number that is no byte. -/
def wideByte : List Char :=
  ['\x7b', '"', 'c', 'o', 'n', 't', 'e', 'n', 't', 'T', 'y', 'p', 'e', '"', ':', '"', 'a', '"', ',',
    '"', 'b', 'y', 't', 'e', 's', '"', ':', '[', '2', '5', '6', ']', '\x7d']

theorem repeated_bytes_are_read_and_wide_byte_refused :
    (∃ value after, (readBlob (String.ofList repeatedBytes)).run.run (.start []) = (.ok value, after)
        ∧ after.store.blob? value = some ⟨.text "a", some [1, 255], .integer 2, .null⟩)
      ∧ ∃ fault, (readBlob (String.ofList wideByte)).run.run (.start []) =
        (.error (.malformedBlob fault), .start []) := by
  constructor
  · have whole : Json.readWhole repeatedBytes = .ok (.object
        [("bytes", .array [.boolean true, .integer 255]), ("contentType", .text "a")]) := rfl
    have reading : Blob.read (String.ofList repeatedBytes) =
        .ok (.ofContent (.text "a") (some [1, 255])) := by
      rw [Blob.read, Json.read, String.toList_ofList, whole]
      rfl
    obtain ⟨type, content, describes, same⟩ := Blob.read_eq_ok_iff.1 reading
    obtain ⟨rfl, rfl, _⟩ : "a" = type ∧ [1, 255] = content ∧ (2 : Int) = content.length := by
      simpa [Blob.ofContent] using same
    obtain ⟨value, after, read, held, _⟩ :=
      (blobs_are_read_as_described _ (.start [])).2.1 _ _ describes
    exact ⟨value, after, read, held⟩
  · have whole : Json.readWhole wideByte = .ok (.object
        [("contentType", .text "a"), ("bytes", .array [.integer 256])]) := rfl
    have reading : Blob.read (String.ofList wideByte) = .error (.bytes .outOfRange) := by
      rw [Blob.read, Json.read, String.toList_ofList, whole]
      rfl
    refine (blobs_are_read_as_described _ (.start [])).2.2 ?_
    rintro ⟨type, content, describes⟩
    have accepted := Blob.read_eq_ok_iff.2 ⟨type, content, describes, rfl⟩
    rw [reading] at accepted
    cases accepted

end Action

end DocumentStore
