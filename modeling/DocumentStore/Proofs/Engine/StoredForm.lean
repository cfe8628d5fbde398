import DocumentStore.Proofs.Engine.Detachment
import DocumentStore.Proofs.Heap.WellKeyed
import DocumentStore.Proofs.Json.Copy
import DocumentStore.Proofs.Table.Fieldwise

/-!
Contract: how the form in which a bag is stored follows from the bag.

Owns: the trees that hold no blob, the objects that are taken for blobs, the stored form of a
bag field by field, and the stored form of what holds no blob.

Does not own: the engine that keeps the form.

A bag that is not taken for a blob itself is stored field by field, each value in its own
stored form. A value that holds no blob is its own stored form.
-/

set_option autoImplicit false

namespace DocumentStore

/-! ### Trees without blobs -/

namespace Tree

/-- Whether a value is written as an object. -/
def WrittenAsObject : Tree → Prop
  | .object _ => True
  | .blob .. => True
  | _ => False

/-- Whether fields are taken for a blob: the tag says so, and the data is an object. -/
def Tagged (fields : List (String × Tree)) : Prop :=
  Table.value? fields "_type" = some (.text "blob")
    ∧ ∃ data, Table.value? fields "data" = some data ∧ data.WrittenAsObject

mutual

/-- There is no blob in the tree, and nothing that is taken for one. -/
def BlobFree : Tree → Prop
  | .blob .. => False
  | .array items => BlobFreeItems items
  | .object fields => ¬Tagged fields ∧ BlobFreeFields fields
  | _ => True

def BlobFreeItems : List Tree → Prop
  | [] => True
  | item :: rest => BlobFree item ∧ BlobFreeItems rest

def BlobFreeFields : List (String × Tree) → Prop
  | [] => True
  | (_, value) :: rest => BlobFree value ∧ BlobFreeFields rest

end

end Tree

mutual

/-- No object of the tree is taken for a blob. -/
def Json.Untagged : Json → Prop
  | .array items => Json.UntaggedItems items
  | .object fields => ContentStore.tagged? fields = none ∧ Json.UntaggedFields fields
  | _ => True

def Json.UntaggedItems : List Json → Prop
  | [] => True
  | item :: rest => Json.Untagged item ∧ Json.UntaggedItems rest

def Json.UntaggedFields : List (String × Json) → Prop
  | [] => True
  | (_, value) :: rest => Json.Untagged value ∧ Json.UntaggedFields rest

end

/-! ### Objects that are taken for blobs -/

theorem ContentStore.tagged?_eq_some_iff {fields data : List (String × Json)} :
    tagged? fields = some data ↔
      Table.value? fields "_type" = some (.text "blob")
        ∧ Table.value? fields "data" = some (.object data) := by
  unfold tagged?
  constructor
  · intro tagged
    split at tagged
    · next foundTag foundData =>
        cases tagged
        exact ⟨foundTag, foundData⟩
    · cases tagged
  · rintro ⟨foundTag, foundData⟩
    rw [foundTag, foundData]
    rfl

namespace Tree

/-- Converted fields are taken for a blob exactly when the fields are, if the conversion keeps
the tag and makes objects of what is written as an object only. -/
theorem exists_tagged?_iff {relation : Tree → Json → Prop}
    (texts : ∀ {value json}, relation value json → (json = .text "blob" ↔ value = .text "blob"))
    (objects : ∀ {value json}, relation value json →
      ((∃ fields, json = .object fields) ↔ value.WrittenAsObject))
    {fields : List (String × Tree)} {jsons : List (String × Json)}
    (fieldwise : Table.Fieldwise relation fields jsons) :
    (∃ data, ContentStore.tagged? jsons = some data) ↔ Tagged fields := by
  constructor
  · rintro ⟨data, tagged⟩
    obtain ⟨foundTag, foundData⟩ := ContentStore.tagged?_eq_some_iff.1 tagged
    obtain ⟨tag, tagEq, tagRelated⟩ := fieldwise.exists_value? foundTag
    obtain ⟨held, heldEq, heldRelated⟩ := fieldwise.exists_value? foundData
    rw [(texts tagRelated).1 rfl] at tagEq
    exact ⟨tagEq, held, heldEq, (objects heldRelated).1 ⟨data, rfl⟩⟩
  · rintro ⟨foundTag, held, foundData, written⟩
    obtain ⟨tag, tagEq, tagRelated⟩ := fieldwise.value?_eq_some foundTag
    obtain ⟨json, jsonEq, heldRelated⟩ := fieldwise.value?_eq_some foundData
    obtain ⟨data, rfl⟩ := (objects heldRelated).2 written
    rw [(texts tagRelated).2 rfl] at tagEq
    exact ⟨data, ContentStore.tagged?_eq_some_iff.2 ⟨tagEq, jsonEq⟩⟩

section Conversion

variable {blobs : Bool}

theorem fieldwise_toJson {fields : List (String × Tree)} {jsons : List (String × Json)}
    (converted : fieldsToJson blobs fields = .ok jsons) :
    Table.Fieldwise (fun value json => value.toJson blobs = .ok json) fields jsons := by
  induction fields generalizing jsons with
  | nil =>
      cases converted
      exact .nil
  | cons field rest inductionHypothesis =>
      obtain ⟨key, value⟩ := field
      obtain ⟨first, others, convertedValue, convertedRest, rfl⟩ := fieldsToJson_cons_eq_ok converted
      exact .cons convertedValue (inductionHypothesis convertedRest)

/-- A value is converted to an object exactly when it is written as one, and to a text only if
it is this text. -/
private theorem toJson_shape {tree : Tree} {json : Json} (converted : tree.toJson blobs = .ok json) :
    ((∃ fields, json = .object fields) ↔ tree.WrittenAsObject)
      ∧ ∀ text, json = .text text ↔ tree = .text text := by
  cases tree with
  | integer value =>
      obtain ⟨_, rfl⟩ := toJson_integer_eq_ok converted
      simp [WrittenAsObject]
  | array items =>
      obtain ⟨jsons, _, rfl⟩ := toJson_array_eq_ok converted
      simp [WrittenAsObject]
  | object fields =>
      obtain ⟨jsons, _, rfl⟩ := toJson_object_eq_ok converted
      simp [WrittenAsObject]
  | blob identity contentType content length digest =>
      rcases toJson_blob_eq_ok converted with ⟨_, _, _, rfl⟩ | ⟨_, _, _, _, _, _, _, rfl⟩ <;>
        simp [WrittenAsObject, taggedContent, description]
  | null => cases converted; simp [WrittenAsObject]
  | boolean value => cases converted; simp [WrittenAsObject]
  | double value => cases converted; simp [WrittenAsObject]
  | text value => cases converted; simp [WrittenAsObject]
  | bytes content => cases converted
  | moment moment => cases converted
  | cycle kind ref => cases converted

theorem tagged?_eq_none_of_toJson {fields : List (String × Tree)} {jsons : List (String × Json)}
    (converted : fieldsToJson blobs fields = .ok jsons) (untagged : ¬Tagged fields) :
    ContentStore.tagged? jsons = none := by
  have tagged := exists_tagged?_iff (fun related => (toJson_shape related).2 "blob")
    (fun related => (toJson_shape related).1) (fieldwise_toJson converted)
  cases found : ContentStore.tagged? jsons with
  | none => rfl
  | some data => exact absurd (tagged.1 ⟨data, found⟩) untagged

mutual

/-- What holds no blob is converted to the same tree, in which nothing is taken for a blob. -/
theorem toTree_toJson (tree : Tree) (blobFree : tree.BlobFree) {json : Json}
    (converted : tree.toJson blobs = .ok json) : json.toTree = tree ∧ json.Untagged := by
  cases tree with
  | integer value =>
      obtain ⟨_, rfl⟩ := toJson_integer_eq_ok converted
      exact ⟨rfl, trivial⟩
  | array items =>
      obtain ⟨jsons, convertedItems, rfl⟩ := toJson_array_eq_ok converted
      have same := itemsToTree_toJson items blobFree convertedItems
      exact ⟨congrArg Tree.array same.1, same.2⟩
  | object fields =>
      obtain ⟨jsons, convertedFields, rfl⟩ := toJson_object_eq_ok converted
      have same := fieldsToTree_toJson fields blobFree.2 convertedFields
      exact ⟨congrArg Tree.object same.1, tagged?_eq_none_of_toJson convertedFields blobFree.1, same.2⟩
  | blob identity contentType content length digest => exact absurd blobFree id
  | null => cases converted; exact ⟨rfl, trivial⟩
  | boolean value => cases converted; exact ⟨rfl, trivial⟩
  | double value => cases converted; exact ⟨rfl, trivial⟩
  | text value => cases converted; exact ⟨rfl, trivial⟩
  | bytes content => cases converted
  | moment moment => cases converted
  | cycle kind ref => cases converted

theorem itemsToTree_toJson (items : List Tree) (blobFree : BlobFreeItems items) {jsons : List Json}
    (converted : itemsToJson blobs items = .ok jsons) :
    Json.itemsToTree jsons = items ∧ Json.UntaggedItems jsons := by
  cases items with
  | nil => cases converted; exact ⟨rfl, trivial⟩
  | cons item rest =>
      obtain ⟨first, others, convertedItem, convertedRest, rfl⟩ := itemsToJson_cons_eq_ok converted
      have sameFirst := toTree_toJson item blobFree.1 convertedItem
      have sameOthers := itemsToTree_toJson rest blobFree.2 convertedRest
      exact ⟨congrArg₂ List.cons sameFirst.1 sameOthers.1, sameFirst.2, sameOthers.2⟩

theorem fieldsToTree_toJson (fields : List (String × Tree)) (blobFree : BlobFreeFields fields)
    {jsons : List (String × Json)} (converted : fieldsToJson blobs fields = .ok jsons) :
    Json.fieldsToTree jsons = fields ∧ Json.UntaggedFields jsons := by
  cases fields with
  | nil => cases converted; exact ⟨rfl, trivial⟩
  | cons field rest =>
      obtain ⟨key, value⟩ := field
      obtain ⟨first, others, convertedValue, convertedRest, rfl⟩ := fieldsToJson_cons_eq_ok converted
      have sameFirst := toTree_toJson value blobFree.1 convertedValue
      have sameOthers := fieldsToTree_toJson rest blobFree.2 convertedRest
      refine ⟨?_, sameFirst.2, sameOthers.2⟩
      rw [Json.fieldsToTree, sameFirst.1, sameOthers.1]

end

mutual

/-- The tree of a JSON tree is converted back to it. -/
theorem toJson_toTree (json : Json) {other : Json} (converted : json.toTree.toJson blobs = .ok other) :
    other = json := by
  cases json with
  | integer value =>
      obtain ⟨_, rfl⟩ := toJson_integer_eq_ok converted
      rfl
  | array items =>
      obtain ⟨jsons, convertedItems, rfl⟩ := toJson_array_eq_ok converted
      rw [itemsToJson_itemsToTree items convertedItems]
  | object fields =>
      obtain ⟨jsons, convertedFields, rfl⟩ := toJson_object_eq_ok converted
      rw [fieldsToJson_fieldsToTree fields convertedFields]
  | null => cases converted; rfl
  | boolean value => cases converted; rfl
  | double value => cases converted; rfl
  | text value => cases converted; rfl

theorem itemsToJson_itemsToTree (items : List Json) {others : List Json}
    (converted : itemsToJson blobs (Json.itemsToTree items) = .ok others) : others = items := by
  cases items with
  | nil => cases converted; rfl
  | cons item rest =>
      obtain ⟨first, later, convertedItem, convertedRest, rfl⟩ := itemsToJson_cons_eq_ok converted
      rw [toJson_toTree item convertedItem, itemsToJson_itemsToTree rest convertedRest]

theorem fieldsToJson_fieldsToTree (fields : List (String × Json)) {others : List (String × Json)}
    (converted : fieldsToJson blobs (Json.fieldsToTree fields) = .ok others) : others = fields := by
  cases fields with
  | nil => cases converted; rfl
  | cons field rest =>
      obtain ⟨key, value⟩ := field
      obtain ⟨first, later, convertedValue, convertedRest, rfl⟩ := fieldsToJson_cons_eq_ok converted
      rw [toJson_toTree value convertedValue, fieldsToJson_fieldsToTree rest convertedRest]

end

mutual

/-- Conversion repeats no key. -/
theorem wellKeyed_toJson (tree : Tree) (wellKeyed : tree.WellKeyed) {json : Json}
    (converted : tree.toJson blobs = .ok json) : json.WellKeyed := by
  cases tree with
  | integer value =>
      obtain ⟨_, rfl⟩ := toJson_integer_eq_ok converted
      exact trivial
  | array items =>
      obtain ⟨jsons, convertedItems, rfl⟩ := toJson_array_eq_ok converted
      exact wellKeyedItems_toJson items wellKeyed convertedItems
  | object fields =>
      obtain ⟨jsons, convertedFields, rfl⟩ := toJson_object_eq_ok converted
      exact ⟨(fieldwise_toJson convertedFields).distinct wellKeyed.1,
        wellKeyedFields_toJson fields wellKeyed.2 convertedFields⟩
  | blob identity contentType content length digest =>
      rcases toJson_blob_eq_ok converted with
        ⟨written, convertedType, _, rfl⟩
          | ⟨written, writtenDigest, writtenLength, convertedType, convertedDigest, convertedLength, _,
            rfl⟩
      · exact wellKeyed_taggedContent (wellKeyed_toJson contentType wellKeyed.1 convertedType) _
      · exact wellKeyed_description (wellKeyed_toJson contentType wellKeyed.1 convertedType)
          (wellKeyed_toJson digest wellKeyed.2.2 convertedDigest)
          (wellKeyed_toJson length wellKeyed.2.1 convertedLength)
  | null => cases converted; exact trivial
  | boolean value => cases converted; exact trivial
  | double value => cases converted; exact trivial
  | text value => cases converted; exact trivial
  | bytes content => cases converted
  | moment moment => cases converted
  | cycle kind ref => cases converted

theorem wellKeyedItems_toJson (items : List Tree) (wellKeyed : WellKeyedItems items)
    {jsons : List Json} (converted : itemsToJson blobs items = .ok jsons) :
    Json.WellKeyedItems jsons := by
  cases items with
  | nil => cases converted; exact trivial
  | cons item rest =>
      obtain ⟨first, others, convertedItem, convertedRest, rfl⟩ := itemsToJson_cons_eq_ok converted
      exact ⟨wellKeyed_toJson item wellKeyed.1 convertedItem,
        wellKeyedItems_toJson rest wellKeyed.2 convertedRest⟩

theorem wellKeyedFields_toJson (fields : List (String × Tree)) (wellKeyed : WellKeyedFields fields)
    {jsons : List (String × Json)} (converted : fieldsToJson blobs fields = .ok jsons) :
    Json.WellKeyedFields jsons := by
  cases fields with
  | nil => cases converted; exact trivial
  | cons field rest =>
      obtain ⟨key, value⟩ := field
      obtain ⟨first, others, convertedValue, convertedRest, rfl⟩ := fieldsToJson_cons_eq_ok converted
      exact ⟨wellKeyed_toJson value wellKeyed.1 convertedValue,
        wellKeyedFields_toJson rest wellKeyed.2 convertedRest⟩

end

end Conversion

end Tree

/-! ### Detached trees -/

namespace ContentStore

theorem detachedItems_cons_eq_ok [Machine] {item : Json} {rest kept : List Json}
    (detaching : detachedItems (item :: rest) = .ok kept) :
    ∃ first others, detached item = .ok first ∧ detachedItems rest = .ok others
      ∧ kept = first :: others := by
  rw [detachedItems] at detaching
  obtain ⟨first, detachedItem, detaching⟩ := Tree.bind_eq_ok.1 detaching
  obtain ⟨others, detachedRest, same⟩ := Tree.bind_eq_ok.1 detaching
  cases same
  exact ⟨first, others, detachedItem, detachedRest, rfl⟩

theorem detachedFields_cons_eq_ok [Machine] {key : String} {value : Json}
    {rest kept : List (String × Json)} (detaching : detachedFields ((key, value) :: rest) = .ok kept) :
    ∃ first others, detached value = .ok first ∧ detachedFields rest = .ok others
      ∧ kept = (key, first) :: others := by
  rw [detachedFields] at detaching
  obtain ⟨first, detachedValue, detaching⟩ := Tree.bind_eq_ok.1 detaching
  obtain ⟨others, detachedRest, same⟩ := Tree.bind_eq_ok.1 detaching
  cases same
  exact ⟨first, others, detachedValue, detachedRest, rfl⟩

theorem fieldwise_detached [Machine] {fields kept : List (String × Json)}
    (detaching : detachedFields fields = .ok kept) :
    Table.Fieldwise (fun value other => detached value = .ok other) fields kept := by
  induction fields generalizing kept with
  | nil =>
      cases detaching
      exact .nil
  | cons field rest inductionHypothesis =>
      obtain ⟨key, value⟩ := field
      obtain ⟨first, others, detachedValue, detachedRest, rfl⟩ := detachedFields_cons_eq_ok detaching
      exact .cons detachedValue (inductionHypothesis detachedRest)

/-- The description that takes the place of a blob. -/
theorem metadata_eq_description (data : List (String × Json)) (bytes : Digest.Bytes)
    (digest : String) :
    metadata data bytes digest = Tree.description ((Table.value? data "contentType").getD .null)
      (.text digest) (.integer bytes.length) := rfl

variable [Machine]

/-- What detaching makes of an object. -/
theorem detached_object_eq_ok {fields : List (String × Json)} {kept : Json}
    (detaching : detached (.object fields) = .ok kept) :
    (∃ data bytes, tagged? fields = some data ∧ content data = .ok bytes
      ∧ kept = metadata data bytes (Digest.contentDigest bytes))
    ∨ (∃ keptFields, tagged? fields = none ∧ detachedFields fields = .ok keptFields
      ∧ kept = .object keptFields) := by
  rw [detached] at detaching
  cases tagged : tagged? fields with
  | some data =>
      rw [tagged] at detaching
      cases taken : content data with
      | error fault =>
          simp only [taken] at detaching
          cases detaching
      | ok bytes =>
          simp only [taken] at detaching
          cases detaching
          exact .inl ⟨data, bytes, rfl, taken, rfl⟩
  | none =>
      rw [tagged] at detaching
      cases walked : detachedFields fields with
      | error fault =>
          simp only [walked] at detaching
          cases detaching
      | ok keptFields =>
          simp only [walked] at detaching
          cases detaching
          exact .inr ⟨keptFields, rfl, rfl, rfl⟩

theorem detached_array_eq_ok {items : List Json} {kept : Json}
    (detaching : detached (.array items) = .ok kept) :
    ∃ keptItems, detachedItems items = .ok keptItems ∧ kept = .array keptItems := by
  rw [detached] at detaching
  cases walked : detachedItems items with
  | error fault =>
      rw [walked] at detaching
      cases detaching
  | ok keptItems =>
      rw [walked] at detaching
      cases detaching
      exact ⟨keptItems, rfl, rfl⟩

mutual

/-- What holds no tagged object stays as it is. -/
theorem detached_of_untagged (json : Json) (untagged : json.Untagged) : detached json = .ok json := by
  cases json with
  | array items => rw [detached, detachedItems_of_untagged items untagged]; rfl
  | object fields =>
      rw [detached, untagged.1]
      simp only [detachedFields_of_untagged fields untagged.2]
      rfl
  | null => rfl
  | boolean value => rfl
  | integer value => rfl
  | double value => rfl
  | text value => rfl

theorem detachedItems_of_untagged (items : List Json) (untagged : Json.UntaggedItems items) :
    detachedItems items = .ok items := by
  cases items with
  | nil => rfl
  | cons item rest =>
      rw [detachedItems, detached_of_untagged item untagged.1,
        detachedItems_of_untagged rest untagged.2]
      rfl

theorem detachedFields_of_untagged (fields : List (String × Json))
    (untagged : Json.UntaggedFields fields) : detachedFields fields = .ok fields := by
  cases fields with
  | nil => rfl
  | cons field rest =>
      obtain ⟨key, value⟩ := field
      rw [detachedFields, detached_of_untagged value untagged.1,
        detachedFields_of_untagged rest untagged.2]
      rfl

end

mutual

/-- Detaching repeats no key. -/
theorem wellKeyed_detached (json : Json) (wellKeyed : json.WellKeyed) {kept : Json}
    (detaching : detached json = .ok kept) : kept.WellKeyed := by
  cases json with
  | array items =>
      obtain ⟨keptItems, detachedRest, rfl⟩ := detached_array_eq_ok detaching
      exact wellKeyedItems_detached items wellKeyed detachedRest
  | object fields =>
      rcases detached_object_eq_ok detaching with
        ⟨data, bytes, tagged, _, rfl⟩ | ⟨keptFields, _, walked, rfl⟩
      · obtain ⟨_, foundData⟩ := tagged?_eq_some_iff.1 tagged
        have dataWellKeyed := Json.wellKeyedFields_iff.1 wellKeyed.2 _ (Table.mem_of_value? foundData)
        have typeWellKeyed : ((Table.value? data "contentType").getD .null).WellKeyed := by
          cases found : Table.value? data "contentType" with
          | none => exact trivial
          | some contentType =>
              exact Json.wellKeyedFields_iff.1 dataWellKeyed.2 _ (Table.mem_of_value? found)
        exact Tree.wellKeyed_description typeWellKeyed trivial trivial
      · exact ⟨(fieldwise_detached walked).distinct wellKeyed.1,
          wellKeyedFields_detached fields wellKeyed.2 walked⟩
  | null => cases detaching; exact trivial
  | boolean value => cases detaching; exact trivial
  | integer value => cases detaching; exact trivial
  | double value => cases detaching; exact trivial
  | text value => cases detaching; exact trivial

theorem wellKeyedItems_detached (items : List Json) (wellKeyed : Json.WellKeyedItems items)
    {kept : List Json} (detaching : detachedItems items = .ok kept) : Json.WellKeyedItems kept := by
  cases items with
  | nil => cases detaching; exact trivial
  | cons item rest =>
      obtain ⟨first, others, detachedItem, detachedRest, rfl⟩ := detachedItems_cons_eq_ok detaching
      exact ⟨wellKeyed_detached item wellKeyed.1 detachedItem,
        wellKeyedItems_detached rest wellKeyed.2 detachedRest⟩

theorem wellKeyedFields_detached (fields : List (String × Json))
    (wellKeyed : Json.WellKeyedFields fields) {kept : List (String × Json)}
    (detaching : detachedFields fields = .ok kept) : Json.WellKeyedFields kept := by
  cases fields with
  | nil => cases detaching; exact trivial
  | cons field rest =>
      obtain ⟨key, value⟩ := field
      obtain ⟨first, others, detachedValue, detachedRest, rfl⟩ := detachedFields_cons_eq_ok detaching
      exact ⟨wellKeyed_detached value wellKeyed.1 detachedValue,
        wellKeyedFields_detached rest wellKeyed.2 detachedRest⟩

end

end ContentStore

/-! ### Stored forms -/

namespace Tree

theorem throughText_eq_ok {blobs : Bool} {tree : Tree} {copied : Json}
    (copying : tree.throughText blobs = .ok copied) :
    ∃ json, tree.toJson blobs = .ok json ∧ copied = json.merged := by
  rw [throughText_eq] at copying
  cases converted : tree.toJson blobs with
  | error failure =>
      rw [converted] at copying
      cases copying
  | ok json =>
      rw [converted] at copying
      cases copying
      exact ⟨json, rfl, rfl⟩

theorem storedForm_eq_ok [Machine] {data : Tree} {stored : Json}
    (form : data.storedForm = .ok stored) :
    ∃ copied, data.throughText true = .ok copied ∧ ContentStore.detached copied = .ok stored := by
  unfold storedForm at form
  obtain ⟨copied, copying, detaching⟩ := bind_eq_ok.1 form
  refine ⟨copied, copying, ?_⟩
  cases walked : ContentStore.detached copied with
  | error fault =>
      rw [walked] at detaching
      cases detaching
  | ok kept =>
      rw [walked] at detaching
      cases detaching
      rfl

/-- The tree of a JSON tree without repeated keys is carried through text as this JSON tree. -/
theorem throughText_toTree {json copied : Json} (wellKeyed : json.WellKeyed)
    (copying : json.toTree.throughText true = .ok copied) : copied = json := by
  obtain ⟨between, converted, rfl⟩ := throughText_eq_ok copying
  rw [toJson_toTree json converted, Json.merged_of_wellKeyed json wellKeyed]

/-- What is stored repeats no key, whatever the bag was. -/
theorem wellKeyed_storedForm [Machine] {data : Tree} {stored : Json}
    (form : data.storedForm = .ok stored) :
    stored.WellKeyed := by
  obtain ⟨copied, copying, detaching⟩ := storedForm_eq_ok form
  obtain ⟨json, _, rfl⟩ := throughText_eq_ok copying
  exact ContentStore.wellKeyed_detached _ json.wellKeyed_merged detaching

/-- What holds no blob is stored as it is. -/
theorem toTree_storedForm [Machine] {data : Tree} (blobFree : data.BlobFree)
    (wellKeyed : data.WellKeyed) {stored : Json} (form : data.storedForm = .ok stored) :
    stored.toTree = data := by
  obtain ⟨copied, copying, detaching⟩ := storedForm_eq_ok form
  obtain ⟨json, converted, rfl⟩ := throughText_eq_ok copying
  obtain ⟨same, untagged⟩ := toTree_toJson data blobFree converted
  rw [Json.merged_of_wellKeyed json (wellKeyed_toJson data wellKeyed converted),
    ContentStore.detached_of_untagged json untagged] at detaching
  cases detaching
  exact same

theorem fieldwise_merged (fields : List (String × Json)) :
    Table.Fieldwise (fun value other => other = value.merged) fields (Json.mergedFields fields) := by
  induction fields with
  | nil => exact .nil
  | cons field rest inductionHypothesis =>
      obtain ⟨key, value⟩ := field
      exact .cons rfl inductionHypothesis

/-- An object without repeated keys is carried through text field by field. -/
theorem throughText_object_eq_ok {fields : List (String × Tree)} (distinct : Table.Distinct fields)
    {copied : Json} (copying : (Tree.object fields).throughText true = .ok copied) :
    ∃ copies, copied = .object copies
      ∧ Table.Fieldwise (fun value other => value.throughText true = .ok other) fields copies := by
  obtain ⟨json, converted, rfl⟩ := throughText_eq_ok copying
  obtain ⟨jsons, convertedFields, rfl⟩ := toJson_object_eq_ok converted
  have through := (fieldwise_toJson convertedFields).comp (fieldwise_merged jsons)
  refine ⟨Json.mergedFields jsons, ?_, through.mono ?_⟩
  · rw [Json.merged, Table.ofEntries_eq_self (through.distinct distinct)]
  · rintro value other ⟨between, convertedValue, rfl⟩
    rw [throughText_eq, convertedValue]
    rfl

/-- A value is copied to an object exactly when it is written as one, and to a text only if it
is this text. -/
theorem throughText_shape {tree : Tree} {copied : Json} (copying : tree.throughText true = .ok copied) :
    ((∃ fields, copied = .object fields) ↔ tree.WrittenAsObject)
      ∧ ∀ text, copied = .text text ↔ tree = .text text := by
  obtain ⟨json, converted, rfl⟩ := throughText_eq_ok copying
  obtain ⟨objects, texts⟩ := toJson_shape converted
  rw [← objects]
  refine ⟨?_, fun text => ?_⟩
  · cases json <;> simp [Json.merged]
  · rw [← texts]
    cases json <;> simp [Json.merged]

theorem exists_tagged?_throughText_iff {fields : List (String × Tree)} {copies : List (String × Json)}
    (fieldwise : Table.Fieldwise (fun value other => value.throughText true = .ok other)
      fields copies) :
    (∃ data, ContentStore.tagged? copies = some data) ↔ Tagged fields :=
  exists_tagged?_iff (fun related => (throughText_shape related).2 "blob")
    (fun related => (throughText_shape related).1) fieldwise

variable [Machine]

/-- An object that is not taken for a blob is stored field by field. -/
theorem storedForm_object_eq_ok {fields : List (String × Tree)} (distinct : Table.Distinct fields)
    (untagged : ¬Tagged fields) {stored : Json} (form : (Tree.object fields).storedForm = .ok stored) :
    ∃ kept, stored = .object kept
      ∧ Table.Fieldwise (fun value other => value.storedForm = .ok other) fields kept := by
  obtain ⟨copied, copying, detaching⟩ := storedForm_eq_ok form
  obtain ⟨copies, rfl, fieldwise⟩ := throughText_object_eq_ok distinct copying
  rcases ContentStore.detached_object_eq_ok detaching with
    ⟨data, _, tagged, _, _⟩ | ⟨kept, _, walked, rfl⟩
  · exact absurd ((exists_tagged?_throughText_iff fieldwise).1 ⟨data, tagged⟩) untagged
  · refine ⟨kept, rfl, (fieldwise.comp (ContentStore.fieldwise_detached walked)).mono ?_⟩
    rintro value other ⟨between, copyingValue, detachingValue⟩
    unfold storedForm
    rw [copyingValue]
    show (ContentStore.detached between).mapError Failure.bytes = .ok other
    rw [detachingValue]
    rfl

/-- An object that is taken for a blob is stored as the description of this blob. -/
theorem storedForm_object_of_tagged {fields : List (String × Tree)}
    (distinct : Table.Distinct fields) (tagged : Tagged fields) {stored : Json}
    (form : (Tree.object fields).storedForm = .ok stored) :
    ∃ contentType digest length, stored = description contentType digest length := by
  obtain ⟨copied, copying, detaching⟩ := storedForm_eq_ok form
  obtain ⟨copies, rfl, fieldwise⟩ := throughText_object_eq_ok distinct copying
  obtain ⟨data, taken⟩ := (exists_tagged?_throughText_iff fieldwise).2 tagged
  rcases ContentStore.detached_object_eq_ok detaching with
    ⟨data, bytes, _, _, rfl⟩ | ⟨_, untagged, _, _⟩
  · exact ⟨_, _, _, ContentStore.metadata_eq_description data bytes _⟩
  · rw [taken] at untagged
    cases untagged

theorem storedForm_object_nil : (Tree.object []).storedForm = .ok (.object []) := by
  rw [storedForm, throughText_eq]
  rfl

end Tree

end DocumentStore
