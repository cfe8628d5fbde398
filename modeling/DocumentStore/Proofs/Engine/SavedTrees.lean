import DocumentStore.Proofs.Engine.Blobs
import DocumentStore.Proofs.Engine.Sequences
import DocumentStore.Proofs.Heap.Written

/-!
Contract: a bag that is saved and loaded is the same tree except for its blobs.

Owns: the outermost tagged objects of a tree, the tree with descriptions in their place, and
the exact condition and result of saving a value that is written as a tree.

Does not own: bags that have no JSON tree.

An object inside the data of a tagged one is not outermost: its description is gone with the
data, whatever it looks like.
-/

set_option autoImplicit false

namespace DocumentStore

namespace Json

mutual

/-- The data of the outermost tagged objects of a tree, in their order. -/
def blobData : Json → List (List (String × Json))
  | .array items => blobDataOfItems items
  | .object fields =>
      match ContentStore.tagged? fields with
      | some data => [data]
      | none => blobDataOfFields fields
  | _ => []

def blobDataOfItems : List Json → List (List (String × Json))
  | [] => []
  | item :: rest => blobData item ++ blobDataOfItems rest

def blobDataOfFields : List (String × Json) → List (List (String × Json))
  | [] => []
  | (_, value) :: rest => blobData value ++ blobDataOfFields rest

end

variable [Machine]

/-- The bytes that the data of a tagged object stands for; none where it stands for nothing. -/
def blobBytes (data : List (String × Json)) : Digest.Bytes :=
  (ContentStore.content data).toOption.getD []

mutual

/-- A tree with each outermost tagged object replaced by the description of its content. -/
def described : Json → Json
  | .array items => .array (describedItems items)
  | .object fields =>
      match ContentStore.tagged? fields with
      | some data =>
          .object [("@type", .text "blob"),
            ("content_type", (Table.value? data "contentType").getD .null),
            ("digest", .text (Digest.contentDigest (blobBytes data))),
            ("length", .integer (blobBytes data).length)]
      | none => .object (describedFields fields)
  | scalar => scalar

def describedItems : List Json → List Json
  | [] => []
  | item :: rest => described item :: describedItems rest

def describedFields : List (String × Json) → List (String × Json)
  | [] => []
  | (key, value) :: rest => (key, described value) :: describedFields rest

end

/-- Data that converts to bytes. -/
def Converts (data : List (String × Json)) : Prop :=
  ∃ bytes, ContentStore.content data = .ok bytes

end Json

namespace ContentStore

open Json (blobData blobDataOfItems blobDataOfFields Converts)

variable [Machine]

theorem blobBytes_eq {data : List (String × Json)} {bytes : Digest.Bytes}
    (taken : content data = .ok bytes) : Json.blobBytes data = bytes := by
  rw [Json.blobBytes, taken]
  rfl

mutual

/-- A tree whose tagged objects all convert is detached into the described tree. -/
theorem detached_of_converts (json : Json) (convert : ∀ data ∈ blobData json, Converts data) :
    detached json = .ok json.described := by
  cases json with
  | array items =>
      rw [detached, detachedItems_of_converts items convert]
      rfl
  | object fields =>
      rw [Json.blobData] at convert
      rw [detached, Json.described]
      cases tagged : tagged? fields with
      | some data =>
          rw [tagged] at convert
          obtain ⟨bytes, taken⟩ := convert data (List.mem_singleton_self data)
          dsimp only
          rw [taken, blobBytes_eq taken]
          rfl
      | none =>
          rw [tagged] at convert
          dsimp only
          rw [detachedFields_of_converts fields convert]
          rfl
  | _ => rfl

theorem detachedItems_of_converts (items : List Json)
    (convert : ∀ data ∈ blobDataOfItems items, Converts data) :
    detachedItems items = .ok (Json.describedItems items) := by
  cases items with
  | nil => rfl
  | cons item rest =>
      rw [Json.blobDataOfItems, List.forall_mem_append] at convert
      rw [detachedItems, detached_of_converts item convert.1,
        detachedItems_of_converts rest convert.2]
      rfl

theorem detachedFields_of_converts (fields : List (String × Json))
    (convert : ∀ data ∈ blobDataOfFields fields, Converts data) :
    detachedFields fields = .ok (Json.describedFields fields) := by
  cases fields with
  | nil => rfl
  | cons field rest =>
      obtain ⟨key, value⟩ := field
      rw [Json.blobDataOfFields, List.forall_mem_append] at convert
      rw [detachedFields, detached_of_converts value convert.1,
        detachedFields_of_converts rest convert.2]
      rfl

end

mutual

/-- Only a tree whose tagged objects all convert is detached. -/
theorem converts_of_detached (json : Json) {kept : Json} (detaching : detached json = .ok kept) :
    ∀ data ∈ blobData json, Converts data := by
  cases json with
  | array items =>
      obtain ⟨keptItems, walked, _⟩ := detached_array_eq_ok detaching
      exact converts_of_detachedItems items walked
  | object fields =>
      rw [Json.blobData]
      rcases detached_object_eq_ok detaching with
        ⟨data, bytes, tagged, taken, _⟩ | ⟨keptFields, untagged, walked, _⟩
      · rw [tagged]
        intro other member
        rw [List.mem_singleton.1 member]
        exact ⟨bytes, taken⟩
      · rw [untagged]
        exact converts_of_detachedFields fields walked
  | _ =>
      intro data member
      cases member

theorem converts_of_detachedItems (items : List Json) {kept : List Json}
    (detaching : detachedItems items = .ok kept) :
    ∀ data ∈ blobDataOfItems items, Converts data := by
  cases items with
  | nil =>
      intro data member
      cases member
  | cons item rest =>
      obtain ⟨first, others, detachedItem, detachedRest, _⟩ := detachedItems_cons_eq_ok detaching
      rw [Json.blobDataOfItems, List.forall_mem_append]
      exact ⟨converts_of_detached item detachedItem, converts_of_detachedItems rest detachedRest⟩

theorem converts_of_detachedFields (fields : List (String × Json)) {kept : List (String × Json)}
    (detaching : detachedFields fields = .ok kept) :
    ∀ data ∈ blobDataOfFields fields, Converts data := by
  cases fields with
  | nil =>
      intro data member
      cases member
  | cons field rest =>
      obtain ⟨key, value⟩ := field
      obtain ⟨first, others, detachedValue, detachedRest, _⟩ := detachedFields_cons_eq_ok detaching
      rw [Json.blobDataOfFields, List.forall_mem_append]
      exact ⟨converts_of_detached value detachedValue, converts_of_detachedFields rest detachedRest⟩

end

end ContentStore

namespace Store

variable {store : Store} {bag : Value} {tree : Json}

/-- The stored form of a value that is written as a tree is the described tree. -/
theorem Written.storedForm_of_converts [Machine] (written : store.Written bag tree)
    (convert : ∀ data ∈ tree.blobData, Json.Converts data) :
    (store.unfold bag).storedForm = .ok tree.described := by
  rw [Tree.storedForm, written.throughText]
  show (ContentStore.detached tree).mapError Failure.bytes = _
  rw [ContentStore.detached_of_converts tree convert]
  rfl

theorem Written.converts_of_storedForm [Machine] (written : store.Written bag tree) {stored : Json}
    (form : (store.unfold bag).storedForm = .ok stored) :
    ∀ data ∈ tree.blobData, Json.Converts data := by
  obtain ⟨copied, copying, detaching⟩ := Tree.storedForm_eq_ok form
  rw [written.throughText] at copying
  cases copying
  exact ContentStore.converts_of_detached tree detaching

end Store

namespace Memory

/-- What a save of a bag stores is what a load right after it answers. -/
theorem load_of_save [Machine] {memory : Memory} {collection : Address} {identifier : String}
    {data : Tree} {control : Option ConcurrencyControl} {sequence : Int} {stored : Json}
    (free : memory.hasConflict collection identifier control sequence = false)
    (form : data.storedForm = .ok stored) :
    ∃ record, ((memory.step (.save collection identifier data control sequence)).2.step
        (.getDocument collection identifier)).1 = .answer (.record record)
      ∧ record.data = stored.draft := by
  refine ⟨record (memory.nextVersion collection identifier stored), ?_, rfl⟩
  have found := document?_step_save free form
  generalize (memory.step (.save collection identifier data control sequence)).2 = after at found ⊢
  simp only [step, found]

/-- A bag that is written as a tree is saved exactly when the data of every outermost tagged
object converts to bytes. What is loaded then is the described tree. -/
theorem save_then_load_is_exact [Machine] (memory : Memory) {store : Store} {bag : Value}
    {tree : Json} (written : store.Written bag tree) (collection : Address) (identifier : String)
    {control : Option ConcurrencyControl} (overwrites : control ≠ some .failOnConflict)
    (sequence : Int) :
    let saved := DocumentEngine.perform store (.save collection identifier bag control sequence)
      memory
    ((∃ reply, saved.1.result = .ok reply) ↔ ∀ data ∈ tree.blobData, Json.Converts data)
      ∧ ((∃ reply, saved.1.result = .ok reply) →
        ∃ record, (saved.2.step (.getDocument collection identifier)).1 = .answer (.record record)
          ∧ ∀ target : Store, (target.place record.data).2.unfold (target.place record.data).1 =
              tree.described.toTree) := by
  have free : memory.hasConflict collection identifier control sequence = false :=
    hasConflict_of_ne_failOnConflict overwrites
  intro saved
  have accepted : (∃ reply, saved.1.result = .ok reply) ↔
      ∀ data ∈ tree.blobData, Json.Converts data := by
    constructor
    · rintro ⟨reply, answered⟩
      obtain ⟨stored, form⟩ := exists_storedForm_of_accepted answered
      exact written.converts_of_storedForm form
    · intro convert
      exact exists_reply_of_storedForm free (written.storedForm_of_converts convert)
  refine ⟨accepted, ?_⟩
  intro answered
  have form := written.storedForm_of_converts (accepted.1 answered)
  obtain ⟨record, loaded, data⟩ := load_of_save free form
  refine ⟨record, loaded, ?_⟩
  intro target
  rw [data]
  exact Store.unfold_place target (Tree.wellKeyed_storedForm form)

/-- A bag in which two properties share a container and two others hold a blob, once as it is
and once in its tagged form. -/
def sharingStore : Store :=
  ⟨#[.array [.integer 3, .double (.zero true)],
    .blob ⟨.text "image/png", some [104, 105], .integer 2, .null⟩,
    .array [.integer 104, .boolean true],
    .object [("contentType", .text "text/plain"), ("data", .cell 2)],
    .object [("_type", .text "blob"), ("data", .cell 3), ("name", .text "gone")],
    .object [("days", .cell 0), ("nights", .cell 0), ("photo", .cell 1), ("letter", .cell 4)]]⟩

/-- The tree of this bag. -/
def sharingTree : Json :=
  let days := Json.array [.integer 3, .double (.zero true)]
  .object [("days", days), ("nights", days),
    ("photo", Tree.taggedContent (.text "image/png") [104, 105]),
    ("letter", .object [("_type", .text "blob"),
      ("data", .object [("contentType", .text "text/plain"),
        ("data", .array [.integer 104, .boolean true])]),
      ("name", .text "gone")])]

theorem written_sharing : sharingStore.Written (.cell 5) sharingTree := by
  have days : sharingStore.Written (.cell 0) (.array [.integer 3, .double (.zero true)]) := by
    apply Store.Written.array rfl
    exact .cons (.integer (by decide)) (.cons (.double _) .nil)
  have photo : sharingStore.Written (.cell 1) (Tree.taggedContent (.text "image/png") [104, 105]) := by
    exact .blob rfl rfl
  have letter : sharingStore.Written (.cell 4) (.object [("_type", .text "blob"),
      ("data", .object [("contentType", .text "text/plain"),
        ("data", .array [.integer 104, .boolean true])]), ("name", .text "gone")]) := by
    apply Store.Written.object rfl (by simp [Table.Distinct])
    refine .cons (.text _) (.cons ?_ (.cons (.text _) .nil))
    apply Store.Written.object rfl (by simp [Table.Distinct])
    refine .cons (.text _) (.cons ?_ .nil)
    apply Store.Written.array rfl
    exact .cons (.integer (by decide)) (.cons (.boolean _) .nil)
  apply Store.Written.object rfl (by simp [Table.Distinct])
  exact .cons days (.cons days (.cons photo (.cons letter .nil)))

theorem sharing_bag_is_loaded :
    sharingStore.Written (.cell 5) sharingTree ∧ none ≠ some ConcurrencyControl.failOnConflict
      ∧ ∃ record, ((DocumentEngine.perform sharingStore
            (.save notes "trip" (.cell 5) none 0) empty).2.step (.getDocument notes "trip")).1 =
          .answer (.record record)
        ∧ ∀ target : Store, (target.place record.data).2.unfold (target.place record.data).1 =
            sharingTree.described.toTree := by
  have overwrites : none ≠ some ConcurrencyControl.failOnConflict := by decide
  have exact := save_then_load_is_exact empty written_sharing notes "trip" overwrites 0
  refine ⟨written_sharing, overwrites, exact.2 (exact.1.2 ?_)⟩
  intro data member
  have outermost : data ∈ [[("contentType", Json.text "image/png"),
      ("data", .array (Tree.byteNumbers [104, 105]))], [("contentType", Json.text "text/plain"),
        ("data", .array [.integer 104, .boolean true])]] := member
  rcases List.mem_cons.1 outermost with rfl | last
  · exact ⟨[104, 105], Tree.content_taggedContent _ _⟩
  · rw [List.mem_singleton.1 last]
    exact ⟨[104, 1], rfl⟩

end Memory

end DocumentStore
