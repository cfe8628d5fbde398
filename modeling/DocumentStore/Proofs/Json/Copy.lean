import DocumentStore.Proofs.Json.RoundTrip
import DocumentStore.Json.Copy
import DocumentStore.Table.Lemmas

/-!
Contract: a value carried through text is its own JSON tree.

Owns: that every JSON tree of a value can be read, and what merging repeated keys does to
trees without any.

Does not own: the stores that values come from.
-/

set_option autoImplicit false

namespace DocumentStore

namespace Json

/-! ### Trees without repeated keys -/

mutual

/-- No object of the tree repeats a key. -/
def WellKeyed : Json → Prop
  | .array items => WellKeyedItems items
  | .object fields => Table.Distinct fields ∧ WellKeyedFields fields
  | _ => True

def WellKeyedItems : List Json → Prop
  | [] => True
  | item :: rest => WellKeyed item ∧ WellKeyedItems rest

def WellKeyedFields : List (String × Json) → Prop
  | [] => True
  | (_, value) :: rest => WellKeyed value ∧ WellKeyedFields rest

end

theorem wellKeyedFields_iff {fields : List (String × Json)} :
    WellKeyedFields fields ↔ ∀ field ∈ fields, field.2.WellKeyed := by
  induction fields with
  | nil => simp [WellKeyedFields]
  | cons field rest inductionHypothesis =>
      obtain ⟨key, value⟩ := field
      simp [WellKeyedFields, inductionHypothesis]

mutual

theorem merged_of_wellKeyed (json : Json) (wellKeyed : json.WellKeyed) : json.merged = json := by
  cases json with
  | array items => rw [merged, mergedItems_of_wellKeyed items wellKeyed]
  | object fields =>
      rw [merged, mergedFields_of_wellKeyed fields wellKeyed.2, Table.ofEntries_eq_self wellKeyed.1]
  | _ => rfl

theorem mergedItems_of_wellKeyed (items : List Json) (wellKeyed : WellKeyedItems items) :
    mergedItems items = items := by
  cases items with
  | nil => rfl
  | cons item rest =>
      rw [mergedItems, merged_of_wellKeyed item wellKeyed.1, mergedItems_of_wellKeyed rest wellKeyed.2]

theorem mergedFields_of_wellKeyed (fields : List (String × Json))
    (wellKeyed : WellKeyedFields fields) : mergedFields fields = fields := by
  cases fields with
  | nil => rfl
  | cons field rest =>
      obtain ⟨key, value⟩ := field
      rw [mergedFields, merged_of_wellKeyed value wellKeyed.1,
        mergedFields_of_wellKeyed rest wellKeyed.2]

end

theorem wellKeyedFields_ofEntries {entries : List (String × Json)}
    (wellKeyed : WellKeyedFields entries) : WellKeyedFields (Table.ofEntries entries) := by
  rw [wellKeyedFields_iff] at wellKeyed ⊢
  intro field member
  have listed := Table.mem_values_ofEntries (List.mem_map_of_mem member)
  obtain ⟨entry, entryMember, same⟩ := List.mem_map.1 listed
  rw [← same]
  exact wellKeyed entry entryMember

mutual

theorem wellKeyed_merged (json : Json) : json.merged.WellKeyed := by
  cases json with
  | array items => exact wellKeyedItems_mergedItems items
  | object fields =>
      exact ⟨Table.distinct_ofEntries _,
        wellKeyedFields_ofEntries (wellKeyedFields_mergedFields fields)⟩
  | _ => exact trivial

theorem wellKeyedItems_mergedItems (items : List Json) : WellKeyedItems (mergedItems items) := by
  cases items with
  | nil => exact trivial
  | cons item rest => exact ⟨wellKeyed_merged item, wellKeyedItems_mergedItems rest⟩

theorem wellKeyedFields_mergedFields (fields : List (String × Json)) :
    WellKeyedFields (mergedFields fields) := by
  cases fields with
  | nil => exact trivial
  | cons field rest =>
      obtain ⟨key, value⟩ := field
      exact ⟨wellKeyed_merged value, wellKeyedFields_mergedFields rest⟩

end

end Json

namespace Tree

/-! ### Values with a JSON tree -/

theorem readableItems_byteNumbers (content : Digest.Bytes) :
    Json.ReadableItems (byteNumbers content) := by
  induction content with
  | nil => exact trivial
  | cons byte rest inductionHypothesis =>
      refine ⟨?_, inductionHypothesis⟩
      have bound := byte.toNat_lt
      have short : (Nat.toDigits 10 byte.toNat).length ≤ 3 :=
        (Nat.length_toDigits_le_iff (by decide) (by decide)).2 (by omega)
      show digitCount byte.toNat ≤ digitLimit
      rw [digitCount, Int.natAbs_natCast, digitLimit]
      omega

/-- A computation in steps succeeds when its first step does and the others do on its result. -/
theorem bind_eq_ok {Error Result Final : Type} {first : Except Error Result}
    {others : Result → Except Error Final} {final : Final} :
    (first >>= others) = .ok final ↔ ∃ result, first = .ok result ∧ others result = .ok final := by
  constructor
  · intro done
    cases first with
    | error failure => cases done
    | ok result => exact ⟨result, rfl, done⟩
  · rintro ⟨result, rfl, done⟩
    exact done

/-- The tagged object that a content is written as. -/
def taggedContent (contentType : Json) (content : Digest.Bytes) : Json :=
  .object [("_type", .text "blob"),
    ("data", .object [("contentType", contentType), ("data", .array (byteNumbers content))])]

/-- The description that is written of a blob without its content. -/
def description (contentType digest length : Json) : Json :=
  .object [("@type", .text "blob"), ("content_type", contentType), ("digest", digest),
    ("length", length)]

section Conversion

variable {blobs : Bool} {json : Json}

theorem toJson_integer_eq_ok {value : Int} (converted : toJson blobs (.integer value) = .ok json) :
    digitCount value ≤ digitLimit ∧ json = .integer value := by
  have bounded : (if digitLimit < digitCount value then .error .integerTooLong
      else .ok (.integer value) : Except Failure Json) = .ok json := converted
  split at bounded
  · cases bounded
  · next short =>
      cases bounded
      exact ⟨Nat.not_lt.1 short, rfl⟩

theorem toJson_array_eq_ok {items : List Tree} (converted : toJson blobs (.array items) = .ok json) :
    ∃ jsons, itemsToJson blobs items = .ok jsons ∧ json = .array jsons := by
  have stepwise : (do return .array (← itemsToJson blobs items) : Except Failure Json) = .ok json :=
    converted
  obtain ⟨jsons, convertedItems, same⟩ := bind_eq_ok.1 stepwise
  cases same
  exact ⟨jsons, convertedItems, rfl⟩

theorem toJson_object_eq_ok {fields : List (String × Tree)}
    (converted : toJson blobs (.object fields) = .ok json) :
    ∃ jsons, fieldsToJson blobs fields = .ok jsons ∧ json = .object jsons := by
  have stepwise : (do return .object (← fieldsToJson blobs fields) : Except Failure Json) =
      .ok json := converted
  obtain ⟨jsons, convertedFields, same⟩ := bind_eq_ok.1 stepwise
  cases same
  exact ⟨jsons, convertedFields, rfl⟩

theorem itemsToJson_cons_eq_ok {item : Tree} {rest : List Tree} {jsons : List Json}
    (converted : itemsToJson blobs (item :: rest) = .ok jsons) :
    ∃ first others, item.toJson blobs = .ok first ∧ itemsToJson blobs rest = .ok others
      ∧ jsons = first :: others := by
  have stepwise : (do
      let first ← item.toJson blobs
      let others ← itemsToJson blobs rest
      return first :: others : Except Failure (List Json)) = .ok jsons := converted
  obtain ⟨first, convertedItem, stepwise⟩ := bind_eq_ok.1 stepwise
  obtain ⟨others, convertedRest, same⟩ := bind_eq_ok.1 stepwise
  cases same
  exact ⟨first, others, convertedItem, convertedRest, rfl⟩

theorem fieldsToJson_cons_eq_ok {key : String} {value : Tree} {rest : List (String × Tree)}
    {jsons : List (String × Json)}
    (converted : fieldsToJson blobs ((key, value) :: rest) = .ok jsons) :
    ∃ first others, value.toJson blobs = .ok first ∧ fieldsToJson blobs rest = .ok others
      ∧ jsons = (key, first) :: others := by
  have stepwise : (do
      let first ← value.toJson blobs
      let others ← fieldsToJson blobs rest
      return (key, first) :: others : Except Failure (List (String × Json))) = .ok jsons := converted
  obtain ⟨first, convertedValue, stepwise⟩ := bind_eq_ok.1 stepwise
  obtain ⟨others, convertedRest, same⟩ := bind_eq_ok.1 stepwise
  cases same
  exact ⟨first, others, convertedValue, convertedRest, rfl⟩

variable {identity : Ref} {contentType length digest : Tree} {content : Option Digest.Bytes}

private theorem toJson_blob_refused :
    toJson false (.blob identity contentType content length digest) =
      .error (.notSerializable .blob) := by
  cases content with
  | some content => rfl
  | none => cases digest <;> rfl

private theorem toJson_blob_of_digest (named : digest ≠ .null) :
    toJson true (.blob identity contentType none length digest) = (do
      let contentType ← toJson true contentType
      let digest ← toJson true digest
      let length ← toJson true length
      return description contentType digest length) := by
  cases digest with
  | null => exact absurd rfl named
  | _ => rfl

/-- A blob is written with its content, or as a description if it has a digest only. -/
theorem toJson_blob_eq_ok
    (converted : toJson blobs (.blob identity contentType content length digest) = .ok json) :
    (∃ written, contentType.toJson blobs = .ok written ∧ (content = none → digest = .null)
      ∧ json = taggedContent written (content.getD []))
    ∨ (∃ written writtenDigest writtenLength, contentType.toJson blobs = .ok written
      ∧ digest.toJson blobs = .ok writtenDigest ∧ length.toJson blobs = .ok writtenLength
      ∧ content = none ∧ json = description written writtenDigest writtenLength) := by
  cases blobs with
  | false =>
      rw [toJson_blob_refused] at converted
      cases converted
  | true =>
      by_cases described : content = none ∧ digest ≠ .null
      · obtain ⟨rfl, named⟩ := described
        rw [toJson_blob_of_digest named] at converted
        obtain ⟨written, convertedType, converted⟩ := bind_eq_ok.1 converted
        obtain ⟨writtenDigest, convertedDigest, converted⟩ := bind_eq_ok.1 converted
        obtain ⟨writtenLength, convertedLength, same⟩ := bind_eq_ok.1 converted
        cases same
        exact .inr ⟨written, writtenDigest, writtenLength, convertedType, convertedDigest,
          convertedLength, rfl, rfl⟩
      · have held : content = none → digest = .null := fun missing =>
          Classical.byContradiction fun named => described ⟨missing, named⟩
        have stepwise : (do
            let written ← contentType.toJson true
            return taggedContent written (content.getD []) : Except Failure Json) = .ok json := by
          cases content with
          | some content => exact converted
          | none =>
              obtain rfl := held rfl
              exact converted
        obtain ⟨written, convertedType, same⟩ := bind_eq_ok.1 stepwise
        cases same
        exact .inl ⟨written, convertedType, held, rfl⟩

end Conversion

theorem readable_taggedContent {contentType : Json} (readable : contentType.Readable)
    (content : Digest.Bytes) : (taggedContent contentType content).Readable :=
  ⟨trivial, ⟨readable, readableItems_byteNumbers content, trivial⟩, trivial⟩

theorem readable_description {contentType digest length : Json} (typeReadable : contentType.Readable)
    (digestReadable : digest.Readable) (lengthReadable : length.Readable) :
    (description contentType digest length).Readable :=
  ⟨trivial, typeReadable, digestReadable, lengthReadable, trivial⟩

theorem wellKeyedItems_byteNumbers (content : Digest.Bytes) :
    Json.WellKeyedItems (byteNumbers content) := by
  induction content with
  | nil => exact trivial
  | cons byte rest inductionHypothesis => exact ⟨trivial, inductionHypothesis⟩

theorem wellKeyed_taggedContent {contentType : Json} (wellKeyed : contentType.WellKeyed)
    (content : Digest.Bytes) : (taggedContent contentType content).WellKeyed :=
  ⟨by simp [Table.Distinct], trivial,
    ⟨by simp [Table.Distinct], wellKeyed, wellKeyedItems_byteNumbers content, trivial⟩, trivial⟩

theorem wellKeyed_description {contentType digest length : Json} (typeWellKeyed : contentType.WellKeyed)
    (digestWellKeyed : digest.WellKeyed) (lengthWellKeyed : length.WellKeyed) :
    (description contentType digest length).WellKeyed :=
  ⟨by simp [Table.Distinct], trivial, typeWellKeyed, digestWellKeyed, lengthWellKeyed, trivial⟩

mutual

/-- The JSON tree of a value can be read. -/
theorem readable_toJson (blobs : Bool) (tree : Tree) {json : Json}
    (converted : tree.toJson blobs = .ok json) : json.Readable := by
  cases tree with
  | integer value =>
      obtain ⟨short, rfl⟩ := toJson_integer_eq_ok converted
      exact short
  | array items =>
      obtain ⟨jsons, convertedItems, rfl⟩ := toJson_array_eq_ok converted
      exact readableItems_toJson blobs items convertedItems
  | object fields =>
      obtain ⟨jsons, convertedFields, rfl⟩ := toJson_object_eq_ok converted
      exact readableFields_toJson blobs fields convertedFields
  | blob identity contentType content length digest =>
      rcases toJson_blob_eq_ok converted with
        ⟨written, convertedType, _, rfl⟩
          | ⟨written, writtenDigest, writtenLength, convertedType, convertedDigest, convertedLength, _,
            rfl⟩
      · exact readable_taggedContent (readable_toJson blobs contentType convertedType) _
      · exact readable_description (readable_toJson blobs contentType convertedType)
          (readable_toJson blobs digest convertedDigest)
          (readable_toJson blobs length convertedLength)
  | null => cases converted; exact trivial
  | boolean value => cases converted; exact trivial
  | double value => cases converted; exact trivial
  | text value => cases converted; exact trivial
  | bytes content => cases converted
  | moment moment => cases converted
  | cycle kind ref => cases converted

theorem readableItems_toJson (blobs : Bool) (items : List Tree) {jsons : List Json}
    (converted : itemsToJson blobs items = .ok jsons) : Json.ReadableItems jsons := by
  cases items with
  | nil => cases converted; exact trivial
  | cons item rest =>
      obtain ⟨first, others, convertedItem, convertedRest, rfl⟩ := itemsToJson_cons_eq_ok converted
      exact ⟨readable_toJson blobs item convertedItem, readableItems_toJson blobs rest convertedRest⟩

theorem readableFields_toJson (blobs : Bool) (fields : List (String × Tree))
    {jsons : List (String × Json)} (converted : fieldsToJson blobs fields = .ok jsons) :
    Json.ReadableFields jsons := by
  cases fields with
  | nil => cases converted; exact trivial
  | cons field rest =>
      obtain ⟨key, value⟩ := field
      obtain ⟨first, others, convertedValue, convertedRest, rfl⟩ := fieldsToJson_cons_eq_ok converted
      exact ⟨readable_toJson blobs value convertedValue, readableFields_toJson blobs rest convertedRest⟩

end

/-- A value with a JSON tree is carried through text as this tree, repeated keys merged. -/
theorem throughText_eq (blobs : Bool) (tree : Tree) :
    tree.throughText blobs = (tree.toJson blobs).map Json.merged := by
  unfold throughText writeJson
  cases converted : tree.toJson blobs with
  | error failure => rfl
  | ok json =>
      simp only [bind, Except.bind, pure, Except.pure, Except.map,
        Json.read_write (readable_toJson blobs tree converted)]

end Tree

end DocumentStore
