import DocumentStore.Engine.Memory
import DocumentStore.Table.Lemmas

/-!
Contract: what detaching the blobs of a bag leaves in the bag and in the content store.

Owns: the detached tree as a function of the tree alone, the contents that a tree
brings, the form in which a saved bag is stored, and the growth of a content store.

Does not own: which saves a run consists of.

`detach` threads the content store through its walk, but never looks into it:
`detach_fst` says that the tree it gives is `detached`, and `gains_detach` that the
store only grows, and only by contents of the tree under their own digests.
-/

set_option autoImplicit false

namespace DocumentStore

namespace ContentStore

/-! ### The detached tree -/

mutual

/-- A tree with its blobs replaced by their descriptions. -/
def detached [Machine] : Json → Except ByteFault Json
  | .array items => (detachedItems items).map .array
  | .object fields =>
      match tagged? fields with
      | some data =>
          (content data).map fun bytes => metadata data bytes (Digest.contentDigest bytes)
      | none => (detachedFields fields).map .object
  | scalar => .ok scalar

def detachedItems [Machine] : List Json → Except ByteFault (List Json)
  | [] => .ok []
  | item :: rest => do
      let first ← detached item
      let others ← detachedItems rest
      return first :: others

def detachedFields [Machine] : List (String × Json) → Except ByteFault (List (String × Json))
  | [] => .ok []
  | (key, value) :: rest => do
      let first ← detached value
      let others ← detachedFields rest
      return (key, first) :: others

end

mutual

/-- The contents of the blobs of a tree. What a blob holds besides its content is no place
for further blobs. -/
def blobContents [Machine] : Json → List Digest.Bytes
  | .array items => blobContentsOfItems items
  | .object fields =>
      match tagged? fields with
      | some data => (content data).toOption.toList
      | none => blobContentsOfFields fields
  | _ => []

def blobContentsOfItems [Machine] : List Json → List Digest.Bytes
  | [] => []
  | item :: rest => blobContents item ++ blobContentsOfItems rest

def blobContentsOfFields [Machine] : List (String × Json) → List Digest.Bytes
  | [] => []
  | (_, value) :: rest => blobContents value ++ blobContentsOfFields rest

end

mutual

/-- The tree that detaching gives does not depend on the contents stored before. -/
theorem detach_fst [Machine] (contents : ContentStore) (json : Json) :
    (detach contents json).1 = detached json := by
  cases json with
  | array items =>
      have walked := detachItems_fst contents items
      rw [detach, detached, ← walked]
      cases detachItems contents items with
      | mk result after => cases result <;> rfl
  | object fields =>
      rw [detach, detached]
      cases tagged? fields with
      | some data => cases taken : content data <;> simp [Except.map, taken]
      | none =>
          have walked := detachFields_fst contents fields
          simp only [← walked]
          cases detachFields contents fields with
          | mk result after => cases result <;> rfl
  | null => rfl
  | boolean value => rfl
  | integer value => rfl
  | double value => rfl
  | text value => rfl

/-- The items that detaching gives do not depend on the contents stored before. -/
theorem detachItems_fst [Machine] (contents : ContentStore) (items : List Json) :
    (detachItems contents items).1 = detachedItems items := by
  cases items with
  | nil => rfl
  | cons item rest =>
      have first := detach_fst contents item
      rw [detachItems, detachedItems, ← first]
      cases detach contents item with
      | mk result after =>
          cases result with
          | error fault => rfl
          | ok detachedItem =>
              have others := detachItems_fst after rest
              simp only [← others]
              cases detachItems after rest with
              | mk remaining final => cases remaining <;> rfl

/-- The fields that detaching gives do not depend on the contents stored before. -/
theorem detachFields_fst [Machine] (contents : ContentStore) (fields : List (String × Json)) :
    (detachFields contents fields).1 = detachedFields fields := by
  cases fields with
  | nil => rfl
  | cons field rest =>
      obtain ⟨key, value⟩ := field
      have first := detach_fst contents value
      rw [detachFields, detachedFields, ← first]
      cases detach contents value with
      | mk result after =>
          cases result with
          | error fault => rfl
          | ok detachedValue =>
              have others := detachFields_fst after rest
              simp only [← others]
              cases detachFields after rest with
              | mk remaining final => cases remaining <;> rfl

end

/-! ### The growth of the content store -/

/-- A content store after some contents arrived: nothing is lost, and whatever is new is one of
these contents under its own digest. -/
structure Gains (before after : ContentStore) (arriving : List Digest.Bytes) : Prop where
  keeps : ∀ digest, (Table.value? before digest).isSome → (Table.value? after digest).isSome
  origin : ∀ digest bytes, Table.value? after digest = some bytes →
    Table.value? before digest = some bytes ∨
      (bytes ∈ arriving ∧ digest = Digest.contentDigest bytes)

namespace Gains

/-- A store that does not change gains nothing. -/
theorem refl (contents : ContentStore) (arriving : List Digest.Bytes) :
    Gains contents contents arriving :=
  ⟨fun _ present => present, fun _ _ found => .inl found⟩

/-- Contents that arrive in two steps. -/
theorem trans {before between after : ContentStore} {first second : List Digest.Bytes}
    (one : Gains before between first) (two : Gains between after second) :
    Gains before after (first ++ second) := by
  refine ⟨fun digest present => two.keeps digest (one.keeps digest present), ?_⟩
  intro digest bytes found
  rcases two.origin digest bytes found with old | ⟨member, named⟩
  · rcases one.origin digest bytes old with older | ⟨member, named⟩
    · exact .inl older
    · exact .inr ⟨List.mem_append_left _ member, named⟩
  · exact .inr ⟨List.mem_append_right _ member, named⟩

/-- More contents may be allowed to arrive than do. -/
theorem mono {before after : ContentStore} {fewer more : List Digest.Bytes}
    (gains : Gains before after fewer) (subset : fewer ⊆ more) : Gains before after more :=
  ⟨gains.keeps, fun digest bytes found =>
    (gains.origin digest bytes found).imp_right fun ⟨member, named⟩ => ⟨subset member, named⟩⟩

/-- One content put under its digest. -/
theorem put (contents : ContentStore) (bytes : Digest.Bytes) :
    Gains contents (Table.put contents (Digest.contentDigest bytes) bytes) [bytes] := by
  constructor
  · intro digest present
    rw [Table.value?_put]
    split
    · rfl
    · exact present
  · intro digest found stored
    rw [Table.value?_put] at stored
    split at stored
    · next same =>
        obtain rfl := Option.some.inj stored
        exact .inr ⟨List.mem_singleton_self _, same.symm⟩
    · exact .inl stored

end Gains

variable [Machine]

mutual

/-- Detaching adds contents of the tree, and no others, whether it ends well or not. -/
theorem gains_detach (contents : ContentStore) (json : Json) :
    Gains contents (detach contents json).2 (blobContents json) := by
  cases json with
  | array items =>
      have walked := gains_detachItems contents items
      rw [detach, blobContents]
      cases step : detachItems contents items with
      | mk result after =>
          rw [step] at walked
          cases result <;> exact walked
  | object fields =>
      rw [detach, blobContents]
      cases tagged? fields with
      | some data =>
          dsimp only
          cases content data with
          | error fault => exact Gains.refl contents _
          | ok bytes => exact Gains.put contents bytes
      | none =>
          have walked := gains_detachFields contents fields
          cases step : detachFields contents fields with
          | mk result after =>
              rw [step] at walked
              cases result <;> exact walked
  | null => exact Gains.refl contents _
  | boolean value => exact Gains.refl contents _
  | integer value => exact Gains.refl contents _
  | double value => exact Gains.refl contents _
  | text value => exact Gains.refl contents _

/-- Detaching items adds contents of the items, and no others. -/
theorem gains_detachItems (contents : ContentStore) (items : List Json) :
    Gains contents (detachItems contents items).2 (blobContentsOfItems items) := by
  cases items with
  | nil => exact Gains.refl contents _
  | cons item rest =>
      have first := gains_detach contents item
      rw [detachItems, blobContentsOfItems]
      cases step : detach contents item with
      | mk result after =>
          rw [step] at first
          cases result with
          | error fault => exact first.mono (List.subset_append_left _ _)
          | ok detachedItem =>
              have others := first.trans (gains_detachItems after rest)
              dsimp only
              cases next : detachItems after rest with
              | mk remaining final =>
                  rw [next] at others
                  cases remaining <;> exact others

/-- Detaching fields adds contents of the fields, and no others. -/
theorem gains_detachFields (contents : ContentStore) (fields : List (String × Json)) :
    Gains contents (detachFields contents fields).2 (blobContentsOfFields fields) := by
  cases fields with
  | nil => exact Gains.refl contents _
  | cons field rest =>
      obtain ⟨key, value⟩ := field
      have first := gains_detach contents value
      rw [detachFields, blobContentsOfFields]
      cases step : detach contents value with
      | mk result after =>
          rw [step] at first
          cases result with
          | error fault => exact first.mono (List.subset_append_left _ _)
          | ok detachedValue =>
              have others := first.trans (gains_detachFields after rest)
              dsimp only
              cases next : detachFields after rest with
              | mk remaining final =>
                  rw [next] at others
                  cases remaining <;> exact others

end

end ContentStore

/-- The form in which a bag is stored: carried through text, its blobs replaced. -/
def Tree.storedForm [Machine] (data : Tree) : Except Failure Json := do
  let copied ← data.throughText true
  (ContentStore.detached copied).mapError .bytes

end DocumentStore
