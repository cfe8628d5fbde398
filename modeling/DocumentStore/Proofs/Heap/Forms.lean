import DocumentStore.Proofs.Heap.Drafts
import DocumentStore.Proofs.Heap.Mutation
import DocumentStore.Proofs.Json.Trees

/-!
Contract: a blob in a bag and the form of the blob are written alike.

Owns: what a blob is written as in terms of its parts, values in which some blobs are replaced by
their forms, and that this changes nothing of the JSON tree, or of the failure to have one.

Does not own: who replaces a blob by its form.

The form of a blob refers to the content type of the blob, which may be a container with blobs
inside. So the relation follows the parts of a blob as it follows the contents of a container,
whether the blob stays or is replaced.
-/

set_option autoImplicit false

namespace DocumentStore

namespace Tree

/-! ### Steps of writing -/

section Steps

variable (blobs : Bool)

theorem toJson_text (text : String) : (Tree.text text).toJson blobs = .ok (.text text) := rfl

theorem toJson_array (items : List Tree) :
    (array items).toJson blobs = itemsToJson blobs items >>= fun jsons => .ok (.array jsons) := rfl

theorem toJson_object (fields : List (String × Tree)) :
    (object fields).toJson blobs = fieldsToJson blobs fields >>= fun jsons => .ok (.object jsons) :=
  rfl

theorem itemsToJson_cons (item : Tree) (rest : List Tree) :
    itemsToJson blobs (item :: rest) = item.toJson blobs >>= fun json =>
      itemsToJson blobs rest >>= fun jsons => .ok (json :: jsons) := rfl

theorem fieldsToJson_cons (key : String) (value : Tree) (rest : List (String × Tree)) :
    fieldsToJson blobs ((key, value) :: rest) = value.toJson blobs >>= fun json =>
      fieldsToJson blobs rest >>= fun jsons => .ok ((key, json) :: jsons) := rfl

end Steps

/-! ### What a blob is written as -/

theorem toJson_eq_ok_null_iff {blobs : Bool} {tree : Tree} :
    tree.toJson blobs = .ok .null ↔ tree = .null := by
  refine ⟨fun converted => ?_, fun same => by rw [same]; rfl⟩
  cases tree with
  | null => rfl
  | integer value => cases (toJson_integer_eq_ok converted).2
  | array items =>
      rw [toJson_array] at converted
      obtain ⟨_, _, same⟩ := bind_eq_ok.1 converted
      cases same
  | object fields =>
      rw [toJson_object] at converted
      obtain ⟨_, _, same⟩ := bind_eq_ok.1 converted
      cases same
  | blob identity contentType content length digest =>
      rcases toJson_blob_eq_ok converted with ⟨_, _, _, same⟩ | ⟨_, _, _, _, _, _, _, same⟩ <;> cases same
  | _ => cases converted

/-- What a blob is written as, given what its parts are written as. -/
def blobJson (contentType : Except Failure Json) (content : Option Digest.Bytes)
    (length digest : Except Failure Json) : Except Failure Json :=
  match content, digest with
  | some content, _ => do return taggedContent (← contentType) content
  | none, .ok .null => do return taggedContent (← contentType) []
  | none, digest => do
      let contentType ← contentType
      let digest ← digest
      let length ← length
      return description contentType digest length

theorem blobJson_of_digest {contentType length digest : Except Failure Json}
    (named : digest ≠ .ok .null) :
    blobJson contentType none length digest = (do
      let contentType ← contentType
      let digest ← digest
      let length ← length
      return description contentType digest length) := by
  unfold blobJson
  split
  · next same => cases same
  · exact absurd rfl named
  · rfl

theorem toJson_blob (identity : Ref) (contentType : Tree) (content : Option Digest.Bytes)
    (length digest : Tree) :
    (Tree.blob identity contentType content length digest).toJson true =
      blobJson (contentType.toJson true) content (length.toJson true) (digest.toJson true) := by
  cases content with
  | some content => rfl
  | none =>
      by_cases named : digest = .null
      · subst named
        rfl
      · rw [blobJson_of_digest (mt toJson_eq_ok_null_iff.1 named)]
        cases digest with
        | null => exact absurd rfl named
        | _ => rfl

end Tree

namespace Blob

variable {store : Store} {blob : Blob}

theorem isCopy_dictionary (blob : Blob) : blob.dictionary.IsCopy := by
  have numbers : ∀ content : Digest.Bytes,
      Draft.IsCopyItems (content.map fun byte => .value (.integer byte.toNat)) := by
    intro content
    induction content with
    | nil => exact trivial
    | cons byte rest inductionHypothesis => exact ⟨trivial, inductionHypothesis⟩
  simp [dictionary, Draft.IsCopy, Draft.IsCopyFields, Table.Distinct, Draft.byteNumbers, numbers]

theorem isCopy_property (blob : Blob) : blob.property.IsCopy := by
  unfold property
  split
  · simp [Draft.IsCopy, Draft.IsCopyFields, Table.Distinct, Draft.text]
  · simp [blob.isCopy_dictionary, Draft.IsCopy, Draft.IsCopyFields, Table.Distinct, Draft.text]

/-- The form of a blob holds its parts and values that are no containers. -/
theorem founded_leaves_property (founded : ∀ inner ∈ (Cell.blob blob).values, store.Founded inner) :
    ∀ leaf ∈ blob.property.leaves, store.Founded leaf := by
  have within : ∀ inner ∈ (Cell.blob blob).values,
      inner.Within fun ref => store.Founded (.cell ref) := by
    rintro inner member ref rfl
    exact founded _ member
  intro leaf member
  cases leaf with
  | cell ref => exact within_leaves_property within _ member ref rfl
  | _ => exact .scalar (by simp)

theorem itemTreesIn_byteNumbers (store : Store) (content : Digest.Bytes) :
    Draft.itemTreesIn store (content.map fun byte => .value (.integer byte.toNat)) =
      Json.itemsToTree (Tree.byteNumbers content) := by
  induction content with
  | nil => rfl
  | cons byte rest inductionHypothesis =>
      have number : (Draft.value (.integer byte.toNat)).treeIn store =
          (Json.integer byte.toNat).toTree := by
        rw [Draft.treeIn, Store.unfold_of_scalar (by simp)]
        rfl
      rw [List.map_cons, Draft.itemTreesIn, inductionHypothesis, number]
      rfl

/-- The form of a blob is written as a blob with the same parts is. -/
theorem toJson_treeIn_property (named : blob.digest ≠ .null → store.unfold blob.digest ≠ .null) :
    (blob.property.treeIn store).toJson true =
      Tree.blobJson ((store.unfold blob.contentType).toJson true) blob.content
        ((store.unfold blob.length).toJson true) ((store.unfold blob.digest).toJson true) := by
  have text : ∀ text : String, (Draft.text text).treeIn store = .text text := by
    intro text
    rw [Draft.text, Draft.treeIn, Store.unfold_of_scalar (by simp)]
    rfl
  unfold property
  split
  · next described =>
      obtain ⟨absent, given⟩ := described
      rw [absent, Tree.blobJson_of_digest (mt Tree.toJson_eq_ok_null_iff.1 (named given))]
      simp only [Draft.treeIn, Draft.fieldTreesIn, text, Tree.toJson_object, Tree.fieldsToJson_cons,
        Tree.toJson_text]
      cases (store.unfold blob.contentType).toJson true with
      | error failure => rfl
      | ok contentType =>
          cases (store.unfold blob.digest).toJson true with
          | error failure => rfl
          | ok digest => cases (store.unfold blob.length).toJson true <;> rfl
  · next tagged =>
      have numbers : ∀ content, (Tree.array (Json.itemsToTree (Tree.byteNumbers content))).toJson true =
          .ok (.array (Tree.byteNumbers content)) := fun content =>
        Tree.toJson_of_readable true (.array (Tree.byteNumbers content))
          (Tree.readableItems_byteNumbers content)
      have form : ∀ content, Tree.toJson true (.object [("_type", .text "blob"),
          ("data", .object [("contentType", store.unfold blob.contentType),
            ("data", .array (Json.itemsToTree (Tree.byteNumbers content)))])]) = (do
              return Tree.taggedContent (← (store.unfold blob.contentType).toJson true) content) := by
        intro content
        simp only [Tree.toJson_object, Tree.fieldsToJson_cons, Tree.toJson_text, numbers]
        cases (store.unfold blob.contentType).toJson true <;> rfl
      simp only [dictionary, Draft.byteNumbers, Draft.treeIn, Draft.fieldTreesIn, text,
        itemTreesIn_byteNumbers, form]
      cases content : blob.content with
      | some content => rfl
      | none =>
          have unnamed : blob.digest = .null := by
            apply Classical.byContradiction
            exact fun given => tagged ⟨content, given⟩
          have null : store.unfold .null = .null := Store.unfold_of_scalar (by simp)
          rw [unnamed, null]
          rfl

end Blob

/-! ### Cells with the same shape -/

/-- Cells of one kind, with as many items, the same keys or the same content. -/
inductive Cell.SameShape : Cell → Cell → Prop where
  | array {items others : List Value} (length : items.length = others.length) :
      SameShape (.array items) (.array others)
  | object {fields others : Table String Value} (keys : Table.keys fields = Table.keys others) :
      SameShape (.object fields) (.object others)
  | blob {held other : Blob} (content : held.content = other.content) :
      SameShape (.blob held) (.blob other)

theorem Cell.SameShape.refl (cell : Cell) : cell.SameShape cell := by
  cases cell with
  | array items => exact .array rfl
  | object fields => exact .object rfl
  | blob held => exact .blob rfl

theorem Cell.SameShape.length_eq {cell other : Cell} (shape : cell.SameShape other) :
    cell.values.length = other.values.length := by
  cases shape with
  | array length => exact length
  | object keys =>
      have lengths := congrArg List.length keys
      simpa [Table.keys, values] using lengths
  | blob content => rfl

namespace Tree

variable {inside others : Value → Tree}

theorem itemsToJson_congr {items remaining : List Value} (length : items.length = remaining.length)
    (each : ∀ pair ∈ items.zip remaining,
      (inside pair.1).toJson true = (others pair.2).toJson true) :
    itemsToJson true (items.map inside) = itemsToJson true (remaining.map others) := by
  induction items generalizing remaining with
  | nil =>
      rw [List.length_eq_zero_iff.1 length.symm]
      rfl
  | cons item rest inductionHypothesis =>
      cases remaining with
      | nil => cases length
      | cons other remaining =>
          obtain ⟨first, each⟩ := List.forall_mem_cons.1 each
          rw [List.map_cons, List.map_cons, itemsToJson_cons, itemsToJson_cons, first,
            inductionHypothesis (Nat.succ.inj length) each]

theorem fieldsToJson_congr {fields remaining : Table String Value}
    (keys : Table.keys fields = Table.keys remaining)
    (each : ∀ pair ∈ (fields.map Prod.snd).zip (remaining.map Prod.snd),
      (inside pair.1).toJson true = (others pair.2).toJson true) :
    fieldsToJson true (fields.map fun field => (field.1, inside field.2)) =
      fieldsToJson true (remaining.map fun field => (field.1, others field.2)) := by
  induction fields generalizing remaining with
  | nil =>
      rw [List.map_eq_nil_iff.1 keys.symm]
      rfl
  | cons field rest inductionHypothesis =>
      cases remaining with
      | nil => cases keys
      | cons other remaining =>
          obtain ⟨same, keys⟩ := List.cons.inj keys
          obtain ⟨first, each⟩ := List.forall_mem_cons.1 each
          rw [List.map_cons, List.map_cons, fieldsToJson_cons, fieldsToJson_cons, first, same,
            inductionHypothesis keys each]

/-- Cells of the same shape are written alike if what is inside them is. -/
theorem toJson_treeOf_congr {cell other : Cell} (shape : cell.SameShape other) (ref second : Ref)
    (each : ∀ pair ∈ cell.values.zip other.values,
      (inside pair.1).toJson true = (others pair.2).toJson true) :
    (cell.treeOf ref inside).toJson true = (other.treeOf second others).toJson true := by
  cases shape with
  | array length =>
      rw [Cell.treeOf, Cell.treeOf, toJson_array, toJson_array, itemsToJson_congr length each]
  | object keys =>
      rw [Cell.treeOf, Cell.treeOf, toJson_object, toJson_object, fieldsToJson_congr keys each]
  | blob content =>
      simp only [Cell.values, List.zip_cons_cons, List.zip_nil_left, List.forall_mem_cons] at each
      rw [Cell.treeOf, Cell.treeOf, toJson_blob, toJson_blob, content, each.1, each.2.1, each.2.2.1]

end Tree

/-! ### Blobs replaced by their forms -/

namespace Store

/-- A value of one store comes from a value of another one, in which some blobs were replaced by
their forms. -/
inductive Rewritten (store after : Store) : Value → Value → Prop where
  | scalar {value : Value} (scalar : ∀ ref, value ≠ .cell ref) : Rewritten store after value value
  | container {ref other : Ref} {cell remaining : Cell} (read : store.read? ref = some cell)
      (readOther : after.read? other = some remaining) (shape : cell.SameShape remaining)
      (each : ∀ pair ∈ cell.values.zip remaining.values, Rewritten store after pair.1 pair.2) :
      Rewritten store after (.cell ref) (.cell other)
  | form {ref : Ref} {blob : Blob} {contentType length digest written : Value}
      (read : store.read? ref = some (.blob blob))
      (contentTypes : Rewritten store after blob.contentType contentType)
      (lengths : Rewritten store after blob.length length)
      (digests : Rewritten store after blob.digest digest)
      (holds : after.Holds (Blob.property ⟨contentType, blob.content, length, digest⟩) written) :
      Rewritten store after (.cell ref) written

variable {store after : Store} {value written : Value}

theorem forall_mem_left_of_zip {α β : Type} {items : List α} {others : List β} {holds : α → Prop}
    (length : items.length = others.length) (each : ∀ pair ∈ items.zip others, holds pair.1) :
    ∀ item ∈ items, holds item := by
  intro item member
  rw [← List.map_fst_zip (Nat.le_of_eq length)] at member
  obtain ⟨pair, listed, rfl⟩ := List.mem_map.1 member
  exact each pair listed

theorem forall_mem_right_of_zip {α β : Type} {items : List α} {others : List β} {holds : β → Prop}
    (length : items.length = others.length) (each : ∀ pair ∈ items.zip others, holds pair.2) :
    ∀ other ∈ others, holds other := by
  intro other member
  rw [← List.map_snd_zip (Nat.le_of_eq length.symm)] at member
  obtain ⟨pair, listed, rfl⟩ := List.mem_map.1 member
  exact each pair listed

theorem eq_of_mem_zip_self {α : Type} {items : List α} {pair : α × α}
    (listed : pair ∈ items.zip items) : pair.2 = pair.1 := by
  rw [List.zip, List.zipWith_self] at listed
  obtain ⟨item, _, rfl⟩ := List.mem_map.1 listed
  rfl

theorem Founded.unfold_eq_null (founded : store.Founded value) (null : store.unfold value = .null) :
    value = .null := by
  cases founded with
  | scalar scalar =>
      rw [unfold_of_scalar scalar] at null
      cases value with
      | cell ref => exact absurd rfl (scalar ref)
      | null => rfl
      | _ => cases null
  | @container ref cell read each =>
      rw [(Founded.container read each).unfold_eq read] at null
      cases cell <;> cases null

/-- Values in which blobs are replaced by their forms have all paths ending, before and after, and
are written as the same JSON tree or refused for the same reason. -/
theorem Rewritten.alike (rewritten : store.Rewritten after value written) :
    store.Founded value ∧ after.Founded written
      ∧ (store.unfold value).toJson true = (after.unfold written).toJson true := by
  induction rewritten with
  | @scalar value scalar =>
      refine ⟨.scalar scalar, .scalar scalar, ?_⟩
      rw [unfold_of_scalar scalar, unfold_of_scalar scalar]
      cases value with
      | cell ref => exact absurd rfl (scalar ref)
      | _ => rfl
  | @container ref other cell remaining read readOther shape _ inductionHypothesis =>
      have founded : store.Founded (.cell ref) := .container read <|
        forall_mem_left_of_zip shape.length_eq fun pair listed => (inductionHypothesis pair listed).1
      have foundedOther : after.Founded (.cell other) := .container readOther <|
        forall_mem_right_of_zip shape.length_eq fun pair listed =>
          (inductionHypothesis pair listed).2.1
      refine ⟨founded, foundedOther, ?_⟩
      rw [founded.unfold_eq read, foundedOther.unfold_eq readOther]
      exact Tree.toJson_treeOf_congr shape ref other fun pair listed =>
        (inductionHypothesis pair listed).2.2
  | @form ref blob contentType length digest written read _ _ _ holds types lengths digests =>
      have founded : store.Founded (.cell ref) := by
        refine .container read fun inner member => ?_
        simp only [Cell.values, List.mem_cons, List.not_mem_nil, or_false] at member
        rcases member with rfl | rfl | rfl
        · exact types.1
        · exact lengths.1
        · exact digests.1
      have parts : ∀ inner ∈ (Cell.blob ⟨contentType, blob.content, length, digest⟩).values,
          after.Founded inner := by
        simp [Cell.values, types.2.1, lengths.2.1, digests.2.1]
      have unfolds := holds.unfoldsTo (Blob.founded_leaves_property parts) (.refl after)
      refine ⟨founded, unfolds.founded, ?_⟩
      rw [founded.unfold_eq read, unfolds.unfolds, Cell.treeOf, Tree.toJson_blob,
        Blob.toJson_treeIn_property (mt digests.2.1.unfold_eq_null), types.2.2, lengths.2.2,
        digests.2.2]

/-! ### Replacement in place -/

/-- All cells are as they were, except that in the place of some references to blobs there are the
forms of these blobs. -/
def ReplacesBlobs (store after : Store) : Prop :=
  ∀ ref cell, store.read? ref = some cell →
    ∃ remaining, after.read? ref = some remaining ∧ cell.SameShape remaining
      ∧ ∀ pair ∈ cell.values.zip remaining.values, pair.2 = pair.1
        ∨ ∃ blob, store.blob? pair.1 = some blob ∧ after.Holds blob.property pair.2

/-- Where every path ends, a value is rewritten when blobs are replaced in place. -/
theorem Founded.rewritten (founded : store.Founded value) (replaces : store.ReplacesBlobs after) :
    store.Rewritten after value value := by
  suffices below : ∀ inner, store.Reaches [value] inner → store.Rewritten after inner inner from
    below value (.self store value)
  induction founded with
  | @scalar value scalar =>
      intro inner reaches
      rw [reaches.eq_of_scalar scalar]
      exact .scalar scalar
  | @container ref cell read each inductionHypothesis =>
      intro inner reaches
      rcases reaches.cell_cases with rfl | ⟨held, between, readHeld, member, further⟩
      · obtain ⟨remaining, readAfter, shape, pairs⟩ := replaces ref cell read
        refine .container read readAfter shape fun pair listed => ?_
        have below := inductionHypothesis pair.1 (List.of_mem_zip listed).1
        rcases pairs pair listed with same | ⟨blob, held, holds⟩
        · rw [same]
          exact below pair.1 (.self store _)
        · obtain ⟨ref, isCell, readBlob⟩ := blob?_eq_some_iff.1 held
          rw [isCell] at below ⊢
          have parts : ∀ part ∈ (Cell.blob blob).values, store.Rewritten after part part :=
            fun part member => below part (.ofInside readBlob member (.self store part))
          simp only [Cell.values, List.forall_mem_cons] at parts
          exact .form readBlob parts.1 parts.2.1 parts.2.2.1 holds
      · cases read.symm.trans readHeld
        exact inductionHypothesis between member inner further

end Store

end DocumentStore
