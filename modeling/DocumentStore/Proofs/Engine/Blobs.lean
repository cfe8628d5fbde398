import DocumentStore.Proofs.Engine.Contents

/-!
Contract: a saved blob is loaded as its description, and its content is found by it.

Owns: the blobs in a bag, the description that takes the place of each, the reading of a
description from a loaded document, and its way into another document.

Does not own: which contents the engine keeps.

A description that is set as a property is written as it stands, is no tagged object, and is
stored unchanged. It names the same digest wherever it goes.
-/

set_option autoImplicit false

namespace DocumentStore

/-! ### Blobs and their descriptions -/

/-- A value of a bag is a blob of some type and content: the blob itself, or the form in which
it is written with its content. -/
inductive Tree.HoldsBlob (type : String) (bytes : Digest.Bytes) : Tree → Prop where
  | filled (identity : Ref) (length digest : Tree) :
      HoldsBlob type bytes (.blob identity (.text type) (some bytes) length digest)
  | hollow (identity : Ref) (length : Tree) (empty : bytes = []) :
      HoldsBlob type bytes (.blob identity (.text type) none length .null)
  | written : HoldsBlob type bytes (Tree.taggedContent (.text type) bytes).toTree

/-- The blob that describes a stored content. -/
def Blob.ofStored (type : String) (bytes : Digest.Bytes) : Blob :=
  .ofMetadata (.text type) (.integer bytes.length) (.text (Digest.contentDigest bytes))

namespace Tree

/-- The description of a stored content. -/
def storedDescription (type : String) (bytes : Digest.Bytes) : Json :=
  description (.text type) (.text (Digest.contentDigest bytes)) (.integer bytes.length)

section Descriptions

variable (type : String) (bytes : Digest.Bytes)

theorem wellKeyed_storedDescription : (storedDescription type bytes).WellKeyed :=
  wellKeyed_description trivial trivial trivial

theorem untagged_storedDescription : (storedDescription type bytes).Untagged :=
  ⟨rfl, trivial, trivial, trivial, trivial, trivial⟩

end Descriptions

/-- A content is written as numbers that stand for its bytes. -/
theorem mapM_byte_byteNumbers (bytes : Digest.Bytes) :
    (Json.itemsToTree (byteNumbers bytes)).mapM byte = .ok bytes := by
  induction bytes with
  | nil => rfl
  | cons first rest inductionHypothesis =>
      have bound := first.toNat_lt
      have read : byte (.integer first.toNat) = .ok first := by
        rw [byte, if_pos (by omega), Int.toNat_natCast, UInt8.ofNat_toNat]
      show List.mapM byte (.integer first.toNat :: Json.itemsToTree (byteNumbers rest)) = _
      rw [List.mapM_cons, read, inductionHypothesis]
      rfl

theorem payload_byteNumbers [Machine] (bytes : Digest.Bytes) :
    payload (some (.array (Json.itemsToTree (byteNumbers bytes)))) = .ok bytes := by
  cases bytes with
  | nil => rfl
  | cons first rest => exact mapM_byte_byteNumbers (first :: rest)

theorem content_taggedContent [Machine] (contentType : Json) (bytes : Digest.Bytes) :
    ContentStore.content [("contentType", contentType), ("data", .array (byteNumbers bytes))] =
      .ok bytes :=
  payload_byteNumbers bytes

/-- The tagged form of a blob is stored as its description. -/
theorem detached_taggedContent [Machine] (type : String) (bytes : Digest.Bytes) :
    ContentStore.detached (taggedContent (.text type) bytes) = .ok (storedDescription type bytes) := by
  have content := content_taggedContent (.text type) bytes
  rw [taggedContent, ContentStore.detached]
  show Except.map _ (ContentStore.content _) = _
  rw [content]
  rfl

theorem blobContents_taggedContent [Machine] (type : String) (bytes : Digest.Bytes) :
    ContentStore.blobContents (taggedContent (.text type) bytes) = [bytes] := by
  have content := content_taggedContent (.text type) bytes
  rw [taggedContent, ContentStore.blobContents]
  show (ContentStore.content _).toOption.toList = _
  rw [content]
  rfl

namespace HoldsBlob

variable {type : String} {bytes : Digest.Bytes} {value : Tree}

/-- A blob is carried through text as its tagged form. -/
theorem throughText_eq_ok (holds : value.HoldsBlob type bytes) {copied : Json}
    (copying : value.throughText true = .ok copied) : copied = taggedContent (.text type) bytes := by
  have typeWellKeyed : (Json.text type).WellKeyed := trivial
  have wellKeyed := wellKeyed_taggedContent typeWellKeyed bytes
  cases holds with
  | filled identity length digest =>
      rw [Tree.throughText_eq] at copying
      cases copying
      exact Json.merged_of_wellKeyed _ wellKeyed
  | hollow identity length empty =>
      rw [Tree.throughText_eq] at copying
      cases copying
      subst empty
      exact Json.merged_of_wellKeyed _ wellKeyed
  | written => exact throughText_toTree wellKeyed copying

variable [Machine]

theorem storedForm_eq_ok (holds : value.HoldsBlob type bytes) {stored : Json}
    (form : value.storedForm = .ok stored) : stored = storedDescription type bytes := by
  obtain ⟨copied, copying, detaching⟩ := Tree.storedForm_eq_ok form
  rw [holds.throughText_eq_ok copying, detached_taggedContent] at detaching
  exact (Except.ok.inj detaching).symm

theorem mem_contents (holds : value.HoldsBlob type bytes) {stored : Json}
    (form : value.storedForm = .ok stored) : bytes ∈ value.contents := by
  obtain ⟨copied, copying, _⟩ := Tree.storedForm_eq_ok form
  rw [contents_of_throughText copying, holds.throughText_eq_ok copying, blobContents_taggedContent]
  exact List.mem_singleton_self bytes

end HoldsBlob

/-- A description is stored as it stands. -/
theorem storedForm_storedDescription [Machine] {type : String} {bytes : Digest.Bytes}
    {stored : Json} (form : (storedDescription type bytes).toTree.storedForm = .ok stored) :
    stored = storedDescription type bytes := by
  obtain ⟨copied, copying, detaching⟩ := Tree.storedForm_eq_ok form
  rw [throughText_toTree (wellKeyed_storedDescription type bytes) copying,
    ContentStore.detached_of_untagged _ (untagged_storedDescription type bytes)] at detaching
  exact (Except.ok.inj detaching).symm

end Tree

/-! ### Loading a blob -/

namespace Store

theorem object?_place_storedDescription (before : Store) (type : String) (bytes : Digest.Bytes) :
    (before.place (Tree.storedDescription type bytes).draft).2.object?
        (before.place (Tree.storedDescription type bytes).draft).1 =
      some [("@type", .text "blob"), ("content_type", .text type),
        ("digest", .text (Digest.contentDigest bytes)), ("length", .integer bytes.length)] := by
  simp only [Tree.storedDescription, Tree.description, Json.draft, Json.fieldDrafts, place, placeFields,
    object?, read?_allocate_self]
  rfl

/-- Where a description was placed, it is read as the blob that describes the content. -/
theorem asBlob_place_storedDescription [Machine] {before later : Store} {type : String}
    {bytes : Digest.Bytes}
    (extension : Extends later (before.place (Tree.storedDescription type bytes).draft).2) :
    later.asBlob (before.place (Tree.storedDescription type bytes).draft).1 =
      .ok (some (.ofStored type bytes)) := by
  have object := extension.object?_eq_some (object?_place_storedDescription before type bytes)
  rw [asBlob, blob?_eq_none_of_object? object, object]
  rfl

/-- A reference to the blob that an object describes. -/
theorem referToBlob_eq_ok [Machine] {store : Store} {value : Value} {blob : Blob}
    (noBlob : store.blob? value = none) (described : store.asBlob value = .ok (some blob)) :
    ∃ reference after, store.referToBlob value = .ok (reference, after)
      ∧ after.blob? reference = some blob := by
  refine ⟨.cell (store.allocate (.blob blob)).1, (store.allocate (.blob blob)).2, ?_, ?_⟩
  · rw [referToBlob, noBlob]
    simp only [described]
    rfl
  · rw [blob?, read?_allocate_self]

end Store

namespace Memory

/-- The engine serves a blob: wherever the document is loaded to, the property gives a blob
without content that describes the content, and the content itself is handed out for it. -/
structure ServesBlob [Machine] (memory : Memory) (collection : Address)
    (identifier key type : String) (bytes : Digest.Bytes) : Prop where
  loaded : ∃ record : Record,
    (memory.step (.getDocument collection identifier)).1 = .answer (.record record)
      ∧ ∀ target : Store, ∃ bag : Ref, (target.place record.data).1 = .cell bag
        ∧ ∀ document : Document, document.bag = bag → ∃ reference after,
          (target.place record.data).2.referToBlob
              (document.property (target.place record.data).2 key) = .ok (reference, after)
            ∧ after.blob? reference = some (.ofStored type bytes)
  content : (memory.step (.getBlobContent collection identifier key)).1 =
    .answer (.value (.value (.bytes bytes)))

/-- A stored description whose digest leads to the content serves the blob. -/
theorem servesBlob_of_description [Machine] {memory : Memory} {collection : Address}
    {identifier key type : String} {bytes : Digest.Bytes} {stored : StoredDocument}
    {kept : List (String × Json)} (found : memory.document? collection identifier = some stored)
    (form : stored.data = .object kept) (distinct : Table.Distinct kept)
    (described : Table.value? kept key = some (Tree.storedDescription type bytes))
    (available : Table.value? memory.contents (Digest.contentDigest bytes) = some bytes) :
    memory.ServesBlob collection identifier key type bytes where
  loaded := by
    refine ⟨record stored, ?_, fun target => ?_⟩
    · rw [step, found]
    · obtain ⟨bag, before, placed, held, extension⟩ :=
        Store.value?_place_object target distinct described
      show ∃ bag : Ref, (target.place stored.data.draft).1 = .cell bag ∧ _
      rw [record, form]
      refine ⟨bag, placed, fun document same => ?_⟩
      have property : document.property (target.place (Json.object kept).draft).2 key =
          (before.place (Tree.storedDescription type bytes).draft).1 := by
        rw [Document.property, Document.properties, same, held]
        rfl
      have object := extension.object?_eq_some
        (Store.object?_place_storedDescription before type bytes)
      rw [property]
      exact Store.referToBlob_eq_ok (Store.blob?_eq_none_of_object? object)
        (Store.asBlob_place_storedDescription extension)
  content := by
    have digest : digest? stored key = some (.text (Digest.contentDigest bytes)) := by
      rw [digest?, form]
      simp only [described]
      rfl
    rw [step, blobContent, found, Option.bind_some, digest]
    simp only [available]
    rfl

end Memory

/-! ### Setting a blob -/

namespace Blob

/-- A blob that describes a content is written as its description. -/
theorem property_ofStored (type : String) (bytes : Digest.Bytes) :
    (ofStored type bytes).property = (Tree.storedDescription type bytes).draft := by
  rw [property, if_pos ⟨rfl, fun named => by cases named⟩]
  rfl

end Blob

namespace Document

variable (store : Store) (document : Document)

/-- After a blob was set, the bag holds the form in which the blob is written. -/
theorem unfold_setBlob {blob : Blob} {json : Json} (written : blob.property = json.draft)
    (wellKeyed : json.WellKeyed) (good : document.bag < store.size) (key : String) :
    ∃ fields, (document.setBlob store key blob).unfold (.cell document.bag) = .object fields
      ∧ Table.value? fields key = some json.toTree := by
  have placed := Store.unfoldWithin_place true json wellKeyed store
  have grown := (Store.extends_place store json.draft).size_le
  rw [setBlob, written]
  generalize store.place json.draft = placement at placed grown ⊢
  obtain ⟨value, after⟩ := placement
  dsimp only at placed grown ⊢
  have goodAfter : document.bag < after.size := Nat.lt_of_lt_of_le good grown
  obtain ⟨steps, fields, size, unfolded, fieldwise⟩ := after.unfold_setField goodAfter key value
  obtain ⟨tree, found, rfl⟩ := fieldwise.value?_eq_some (Table.value?_put_self _ key value)
  refine ⟨fields, unfolded, ?_⟩
  rw [found]
  refine congrArg some (placed _ (fun ref cell new found => ?_) ?_ fun ref member => ?_)
  · -- the bag is older than what was placed
    have different : document.bag ≠ ref := Nat.ne_of_lt (Nat.lt_of_lt_of_le good new)
    exact (Store.read?_write_of_ne after _ different).trans found
  · have positive := Nat.zero_lt_of_lt good
    omega
  · rw [List.mem_singleton.1 member]
    exact .inl good

end Document

/-- A bag that is saved holds under a key what setting a blob put there. Its other properties
may have changed since. -/
def Tree.CarriesBlob (saved : Tree) (key : String) (blob : Blob) : Prop :=
  ∃ (store : Store) (document : Document) (set fields : List (String × Tree)),
    document.bag < store.size
      ∧ (document.setBlob store key blob).unfold (.cell document.bag) = .object set
      ∧ saved = .object fields ∧ Table.Distinct fields ∧ ¬Tree.Tagged fields
      ∧ Table.value? fields key = Table.value? set key

namespace Memory

/-- A document of a bag that is not taken for a blob itself serves each of the blobs whose
descriptions it holds. -/
theorem servesBlob_of_entry [Machine] {requests : List (Request Tree)} {collection : Address}
    {identifier key type : String} {bytes : Digest.Bytes} {entry : Entry}
    {fields : List (String × Tree)} {value : Tree}
    (known : Ledger.ofHistory (empty.history requests) (collection, identifier) = some entry)
    (bag : entry.data = .object fields) (distinct : Table.Distinct fields)
    (untagged : ¬Tree.Tagged fields) (found : Table.value? fields key = some value)
    (described : ∀ stored, value.storedForm = .ok stored →
      stored = Tree.storedDescription type bytes)
    (available : Table.value? (empty.afterRun requests).contents (Digest.contentDigest bytes) =
      some bytes) :
    (empty.afterRun requests).ServesBlob collection identifier key type bytes := by
  obtain ⟨stored, present, version⟩ := (represents_afterRun requests).exists_version known
  have form := version.form
  rw [bag] at form
  obtain ⟨kept, same, fieldwise⟩ := Tree.storedForm_object_eq_ok distinct untagged form
  obtain ⟨description, foundKept, formValue⟩ := fieldwise.value?_eq_some found
  rw [described description formValue] at foundKept
  exact servesBlob_of_description present same (fieldwise.distinct distinct) foundKept available

/-- In every run whose contents share no hash, a document whose last save held a blob serves this
blob while it is present. The blob that is loaded from it, set as a property of any document and
saved, is served there in every later state, whatever became of the first document. -/
theorem run_serves_blobs [Machine] (earlier later : List (Request Tree))
    (collisionFree : Digest.CollisionFree ((earlier ++ later).flatMap Request.passed))
    {collection : Address} {identifier key type : String} {bytes : Digest.Bytes} {entry : Entry}
    {fields : List (String × Tree)} {value : Tree}
    (known : Ledger.ofHistory (empty.history earlier) (collection, identifier) = some entry)
    (bag : entry.data = .object fields) (distinct : Table.Distinct fields)
    (untagged : ¬Tree.Tagged fields) (found : Table.value? fields key = some value)
    (holds : value.HoldsBlob type bytes) :
    (empty.afterRun earlier).ServesBlob collection identifier key type bytes
      ∧ ∀ (otherCollection : Address) (otherIdentifier otherKey : String) (otherEntry : Entry),
        Ledger.ofHistory (empty.history (earlier ++ later)) (otherCollection, otherIdentifier) =
            some otherEntry →
          otherEntry.data.CarriesBlob otherKey (.ofStored type bytes) →
            (empty.afterRun (earlier ++ later)).ServesBlob otherCollection otherIdentifier otherKey
              type bytes := by
  have member : bytes ∈ entry.data.contents := by
    obtain ⟨stored, _, version⟩ := (represents_afterRun earlier).exists_version known
    have form := version.form
    rw [bag] at form ⊢
    obtain ⟨kept, _, fieldwise⟩ := Tree.storedForm_object_eq_ok distinct untagged form
    obtain ⟨description, _, formValue⟩ := fieldwise.value?_eq_some found
    exact Tree.contents_object distinct untagged form found (holds.mem_contents formValue)
  constructor
  · have apartEarlier : Digest.CollisionFree ((earlier ++ []).flatMap Request.passed) := by
      rw [List.append_nil]
      rw [List.flatMap_append] at collisionFree
      exact collisionFree.mono (List.subset_append_left _ _)
    have available := value?_contentDigest apartEarlier known member
    rw [List.append_nil] at available
    exact servesBlob_of_entry known bag distinct untagged found
      (fun stored form => holds.storedForm_eq_ok form) available
  · rintro otherCollection otherIdentifier otherKey otherEntry otherKnown
      ⟨store, document, set, others, good, unfolded, same, otherDistinct, otherUntagged, carried⟩
    obtain ⟨setFields, unfoldedSet, foundSet⟩ := document.unfold_setBlob store
      (Blob.property_ofStored type bytes) (Tree.wellKeyed_storedDescription type bytes) good otherKey
    rw [unfolded] at unfoldedSet
    cases unfoldedSet
    exact servesBlob_of_entry otherKnown same otherDistinct otherUntagged (carried.trans foundSet)
      (fun stored form => Tree.storedForm_storedDescription form)
      (value?_contentDigest collisionFree known member)

/-- A bag with a blob. -/
def photoFields : List (String × Tree) :=
  [("photo", .blob 0 (.text "image/png") (some [1, 2, 3]) (.integer 3) .null)]

/-- A bag with the description of this blob, as setting it makes it. -/
def copiedFields : List (String × Tree) :=
  [("image", (Tree.storedDescription "image/png" [1, 2, 3]).toTree)]

/-- The blob is there after its save, and in the copy after the first document is gone. -/
theorem photo_outlives_its_document :
    (empty.afterRun [.save notes "trip" (.object photoFields) none 0]).ServesBlob notes "trip" "photo"
        "image/png" [1, 2, 3]
      ∧ (empty.afterRun [.save notes "trip" (.object photoFields) none 0,
        .purgeDocument notes "trip", .save notes "copy" (.object copiedFields) none 0]).ServesBlob
          notes "copy" "image" "image/png" [1, 2, 3] := by
  have photoPassed : (Tree.object photoFields).contents = [[1, 2, 3]] := by
    rw [Tree.contents, Tree.throughText_eq]
    rfl
  have copyPassed : (Tree.object copiedFields).contents = [] := by
    rw [Tree.contents, Tree.throughText_eq]
    rfl
  have photoForm : (Tree.object photoFields).storedForm =
      .ok (.object [("photo", Tree.storedDescription "image/png" [1, 2, 3])]) := by
    rw [Tree.storedForm, Tree.throughText_eq]
    rfl
  have copyForm : (Tree.object copiedFields).storedForm =
      .ok (.object [("image", Tree.storedDescription "image/png" [1, 2, 3])]) := by
    rw [Tree.storedForm, Tree.throughText_eq]
    rfl
  obtain ⟨entry, known, bag, _⟩ := exists_entry_of_save [] photoForm rfl
  have free := @hasConflict_of_ne_failOnConflict (empty.afterRun
    [.save notes "trip" (.object photoFields) none 0, .purgeDocument notes "trip"])
    notes "copy" none 0 (by decide)
  obtain ⟨copy, copyKnown, copyBag, _⟩ := exists_entry_of_save
    [.save notes "trip" (.object photoFields) none 0, .purgeDocument notes "trip"] copyForm free
  have collisionFree : Digest.CollisionFree
      (([.save notes "trip" (.object photoFields) none 0] ++ [.purgeDocument notes "trip",
        .save notes "copy" (.object copiedFields) none 0] : List (Request Tree)).flatMap
          Request.passed) := by
    have passed : (([.save notes "trip" (.object photoFields) none 0] ++ [.purgeDocument notes "trip",
        .save notes "copy" (.object copiedFields) none 0] : List (Request Tree)).flatMap
          Request.passed) = [[1, 2, 3]] := by
      simp [Request.passed, photoPassed, copyPassed]
    rw [passed]
    intro content member other otherMember _
    rw [List.mem_singleton.1 member, List.mem_singleton.1 otherMember]
  have found : Table.value? photoFields "photo" =
      some (.blob 0 (.text "image/png") (some [1, 2, 3]) (.integer 3) .null) := rfl
  have serves := run_serves_blobs [.save notes "trip" (.object photoFields) none 0]
    [.purgeDocument notes "trip", .save notes "copy" (.object copiedFields) none 0] collisionFree
    known bag (by simp [Table.Distinct, photoFields]) (fun tagged => by cases tagged.1) found
    (.filled 0 (.integer 3) .null)
  refine ⟨serves.1, serves.2 notes "copy" "image" copy copyKnown ?_⟩
  refine ⟨(Store.empty.allocate (.object [])).2, ⟨true, "copy", 0, none, 0, none⟩, copiedFields,
    copiedFields, Nat.one_pos, ?_, copyBag, by simp [Table.Distinct, copiedFields],
    (fun tagged => by cases tagged.1), rfl⟩
  rw [Document.setBlob, Blob.property_ofStored]
  rfl

end Memory

end DocumentStore
