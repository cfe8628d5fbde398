import DocumentStore.Proofs.Heap.Agreement
import DocumentStore.Proofs.Workspace.Getters

/-!
Contract: what a document answers depends on its bag and on what is below it.

Owns: the methods that only read, that documents with one bag answer alike, and that a document
answers as before in a later state with the same cells at and below its bag.

Does not own: which steps leave these cells alone.

Most answers are values of the bag or calculated from it. The list of keys, and the blob that a form
describes, are new containers each time, so of these only the contents are the same.
-/

set_option autoImplicit false

namespace DocumentStore

namespace Document

/-- The methods that read a bag as a whole. -/
def bagReaders : List String :=
  ["get_data", "to_dictionary", "to_json_string", "count", "get_keys"]

/-- The methods that read what a document is, besides its bag. -/
def identityReaders : List String :=
  ["get_id", "get_sequence", "get_revision_id", "get_collection"]

/-- A method that reads the bag, as a whole or under one key. -/
def ReadsBag (method : String) (arguments : List Object) : Prop :=
  (method ∈ bagReaders ∧ arguments = [])
    ∨ (method ∈ getters ∧ ∃ key, arguments = [.value (.text key)])

/-- A method that only reads. -/
def Reads (method : String) (arguments : List Object) : Prop :=
  (method ∈ identityReaders ∧ arguments = []) ∨ ReadsBag method arguments

/-- The getters that give a value of the bag, or what is calculated from it. -/
def valueGetters : List String :=
  ["get_value", "get_string", "get_boolean", "get_int", "get_long", "get_float", "get_double",
    "get_date", "get_array", "get_dictionary"]

theorem mem_getters_cases {method : String} (getter : method ∈ getters) :
    method = "contains" ∨ method = "get_blob" ∨ method ∈ valueGetters := by
  simp only [getters, valueGetters, List.mem_cons, List.not_mem_nil, or_false] at getter ⊢
  tauto

end Document

/-! ### Runs of readings -/

namespace Action

section Runs

variable (workspace : Workspace) (number : Nat)

theorem run_consult_form {α : Type} (calculation : Store → Except Failure α) (form : α → Object) :
    ((do return some (form (← consult calculation))) : Action (Option Object)).run.run workspace =
      ((calculation workspace.store).map fun result => some (form result), workspace) := by
  cases made : calculation workspace.store with
  | ok result =>
      rw [run_bind, run_consult made]
      rfl
  | error failure =>
      rw [run_bind, run_consult_of_error made]
      rfl

variable [Machine]

theorem run_valueGetter (key : String) {method : String} (listed : method ∈ Document.valueGetters) :
    ∃ reading,
      Document.read? workspace.store ((workspace.document number).property workspace.store key)
          method = some reading
        ∧ (callDocument number method [.value (.text key)]).run.run workspace =
          (reading.map fun value => some (.value value), workspace) := by
  have gives : ∀ reading : Except Failure Value,
      ((do return some (.value (← consult fun _ => reading))) : Action (Option Object)).run.run
        workspace = (reading.map fun value => some (.value value), workspace) :=
    fun reading => run_consult_form workspace (fun _ => reading) Object.value
  simp only [Document.valueGetters, List.mem_cons, List.not_mem_nil, or_false] at listed
  rcases listed with rfl | rfl | rfl | rfl | rfl | rfl | rfl | rfl | rfl | rfl
  all_goals
    refine ⟨_, rfl, Eq.trans ?_ (gives _)⟩
    rfl

theorem run_get_blob (key : String) :
    (callDocument number "get_blob" [.value (.text key)]).run.run workspace =
      match workspace.store.referToBlob
          ((workspace.document number).property workspace.store key) with
      | .ok (value, store) => (.ok (some (.value value)), { workspace with store })
      | .error failure => (.error failure, workspace) := by
  change ((do giveValue (← blobOf number key) : Action (Option Object)).run.run workspace) = _
  rw [run_bind, blobOf, run_bind, consultDocument, run_bind, run_get]
  dsimp only
  cases workspace.store.referToBlob ((workspace.document number).property workspace.store key) <;> rfl

theorem run_to_json_string :
    (callDocument number "to_json_string" []).run.run workspace =
      (((workspace.document number).writeJson workspace.store).map fun text =>
        some (.value (.text text)), workspace) :=
  run_consult_form workspace (workspace.document number).writeJson fun text => .value (.text text)

theorem run_get_id :
    (callDocument number "get_id" []).run.run workspace =
      (.ok (some (.value (.text (workspace.document number).identifier))), workspace) :=
  rfl

theorem run_get_sequence :
    (callDocument number "get_sequence" []).run.run workspace =
      (.ok (some (.value (.integer (workspace.document number).sequence))), workspace) :=
  rfl

theorem run_get_revision_id :
    (callDocument number "get_revision_id" []).run.run workspace =
      (.ok (some (.value (((workspace.document number).revision.map Value.text).getD .null))),
        workspace) :=
  rfl

theorem run_get_data :
    (callDocument number "get_data" []).run.run workspace =
      (.ok (some (.value (.cell (workspace.document number).bag))), workspace) :=
  rfl

theorem run_to_dictionary :
    (callDocument number "to_dictionary" []).run.run workspace =
      (.ok (some (.value (.cell (workspace.document number).bag))), workspace) :=
  rfl

theorem run_count :
    (callDocument number "count" []).run.run workspace =
      (.ok (some (.value (.integer ((workspace.document number).count workspace.store)))), workspace) :=
  rfl

theorem run_get_keys :
    (callDocument number "get_keys" []).run.run workspace =
      (.ok (some (.value (workspace.store.place
          (.array (((workspace.document number).keys workspace.store).map Draft.text))).1)),
        { workspace with
          store := (workspace.store.place
            (.array (((workspace.document number).keys workspace.store).map Draft.text))).2 }) :=
  rfl

theorem run_contains (key : String) :
    (callDocument number "contains" [.value (.text key)]).run.run workspace =
      (.ok (some (.value (.boolean ((workspace.document number).contains workspace.store key)))),
        workspace) :=
  rfl

theorem run_get_collection :
    (callDocument number "get_collection" []).run.run workspace =
      (.ok (some (((workspace.collectionOf (workspace.document number)).map Object.collection).getD
        (.value .null))), workspace) := by
  rw [callDocument, run_bind, run_get]
  dsimp only
  cases workspace.collectionOf (workspace.document number) <;> rfl

end Runs

/-! ### Documents with one bag -/

/-- Documents with the same bag answer alike. -/
theorem run_eq_of_bag_eq [Machine] {workspace : Workspace} {left right : Nat}
    (same : (workspace.document left).bag = (workspace.document right).bag) {method : String}
    {arguments : List Object} (reads : Document.ReadsBag method arguments) :
    (callDocument left method arguments).run.run workspace =
      (callDocument right method arguments).run.run workspace := by
  have properties : (workspace.document left).properties workspace.store =
      (workspace.document right).properties workspace.store := congrArg workspace.store.fields same
  rcases reads with ⟨listed, rfl⟩ | ⟨getter, key, rfl⟩
  · simp only [Document.bagReaders, List.mem_cons, List.not_mem_nil, or_false] at listed
    rcases listed with rfl | rfl | rfl | rfl | rfl
    · rw [run_get_data, run_get_data, same]
    · rw [run_to_dictionary, run_to_dictionary, same]
    · rw [run_to_json_string, run_to_json_string, Document.writeJson, Document.writeJson, same]
    · rw [run_count, run_count, Document.count, Document.count, properties]
    · rw [run_get_keys, run_get_keys, Document.keys, Document.keys, properties]
  · have property : (workspace.document left).property workspace.store key =
        (workspace.document right).property workspace.store key := by
      rw [Document.property, Document.property, properties]
    rcases Document.mem_getters_cases getter with rfl | rfl | listed
    · rw [run_contains, run_contains, Document.contains, Document.contains, properties]
    · rw [run_get_blob, run_get_blob, property]
    · obtain ⟨reading, read, run⟩ := run_valueGetter workspace left key listed
      obtain ⟨other, readOther, runOther⟩ := run_valueGetter workspace right key listed
      rw [property, readOther] at read
      rw [run, runOther, Option.some.inj read]

end Action

/-! ### Later states -/

namespace Store

variable {store after : Store} {value : Value}

/-- Texts are placed without any containers of their own. -/
theorem placeItems_texts (texts : List String) (store : Store) :
    store.placeItems (texts.map Draft.text) = (texts.map Value.text, store) := by
  induction texts with
  | nil => rfl
  | cons text rest inductionHypothesis =>
      rw [List.map_cons, Draft.text, placeItems, place]
      dsimp only
      rw [inductionHypothesis]
      rfl

/-- The blob of a dictionary form depends on the tree of its data only. -/
theorem blobOfDictionary_congr [Machine] {fields : Table String Value}
    (each : ∀ inner ∈ fields.map Prod.snd, after.unfold inner = store.unfold inner) :
    after.blobOfDictionary fields = store.blobOfDictionary fields := by
  have data : (Table.value? fields "data").map after.unfold =
      (Table.value? fields "data").map store.unfold := by
    cases found : Table.value? fields "data" with
    | none => rfl
    | some inner => exact congrArg some (each inner (List.mem_map_of_mem (Table.mem_of_value? found)))
  rw [blobOfDictionary, blobOfDictionary, data]

/-- Fields are tagged or not, whatever the store: it only tells the object that their data is. -/
theorem taggedBlob?_cases (fields : Table String Value) :
    (∀ store : Store, store.taggedBlob? fields = none)
      ∨ ∃ data, Table.value? fields "data" = some data
        ∧ ∀ store : Store, store.taggedBlob? fields = store.object? data := by
  by_cases marked : Table.value? fields "_type" = some (.text "blob")
  · cases found : Table.value? fields "data" with
    | some data => exact .inr ⟨data, rfl, fun store => by simp only [taggedBlob?, marked, found]⟩
    | none => exact .inl fun store => by simp only [taggedBlob?, marked, found]
  · refine .inl fun store => ?_
    unfold taggedBlob?
    split
    · next same _ => exact absurd same marked
    · rfl

namespace SameBelow

variable [Machine] (same : store.SameBelow after value) (intact : store.Intact value)
  (grown : store.size ≤ after.size)

include same intact grown

theorem blobOfDictionary {fields : Table String Value} (found : store.object? value = some fields) :
    after.blobOfDictionary fields = store.blobOfDictionary fields := by
  obtain ⟨ref, rfl, read⟩ := object?_eq_some_iff.1 found
  exact blobOfDictionary_congr fun inner member =>
    (same.inside read member).unfold (intact.inside read member) grown

theorem blobOfFields {fields : Table String Value} (found : store.object? value = some fields) :
    after.blobOfFields fields = store.blobOfFields fields := by
  rw [Store.blobOfFields, Store.blobOfFields]
  rcases taggedBlob?_cases fields with untagged | ⟨data, foundData, tagged⟩
  · rw [untagged, untagged]
  · obtain ⟨ref, rfl, read⟩ := object?_eq_some_iff.1 found
    have member : data ∈ fields.map Prod.snd := List.mem_map_of_mem (Table.mem_of_value? foundData)
    have sameData := same.inside read member
    rw [tagged, tagged, sameData.object?]
    cases foundParts : store.object? data with
    | none => rfl
    | some parts =>
        dsimp only
        rw [sameData.blobOfDictionary (intact.inside read member) grown foundParts]

theorem asBlob : after.asBlob value = store.asBlob value := by
  rw [Store.asBlob, Store.asBlob, same.blob?, same.object?]
  cases found : store.object? value with
  | none => cases store.blob? value <;> rfl
  | some fields =>
      rw [blob?_eq_none_of_object? found]
      exact same.blobOfFields intact grown found

end SameBelow

end Store

namespace Document

variable {store after : Store} {document : Document}

/-- The value of a property is no container, or it is reached from the bag. -/
theorem scalar_or_reaches_property (store : Store) (document : Document) (key : String) :
    (∀ ref, document.property store key ≠ .cell ref)
      ∨ store.Reaches [.cell document.bag] (document.property store key) := by
  cases found : Table.value? (document.properties store) key with
  | none =>
      left
      rw [property, found]
      simp
  | some value =>
      right
      rw [property, found]
      have member : value ∈ (store.fields document.bag).map Prod.snd :=
        List.mem_map_of_mem (Table.mem_of_value? found)
      unfold Store.fields at member
      split at member
      · next fields read => exact (Store.Reaches.self store _).inside read member
      · cases member

theorem intact_property (intact : store.Intact (.cell document.bag)) (key : String) :
    store.Intact (document.property store key) := by
  rcases scalar_or_reaches_property store document key with scalar | reaches
  · exact .of_scalar scalar
  · exact intact.below reaches

section Same

variable (same : store.SameBelow after (.cell document.bag))

include same

theorem properties_eq_of_sameBelow : document.properties after = document.properties store := by
  rw [properties, properties, Store.fields, Store.fields, same.self]

theorem property_eq_of_sameBelow (key : String) :
    document.property after key = document.property store key := by
  rw [property, property, properties_eq_of_sameBelow same]

theorem sameBelow_property (key : String) : store.SameBelow after (document.property store key) := by
  rcases scalar_or_reaches_property store document key with scalar | reaches
  · exact .of_scalar scalar
  · exact same.below reaches

theorem read?_eq_of_sameBelow (key method : String) :
    read? after (document.property after key) method =
      read? store (document.property store key) method := by
  have below := sameBelow_property same key
  rw [property_eq_of_sameBelow same]
  unfold read?
  simp only [Store.asArray, Store.asObject, below.array?, below.object?]

end Same

end Document

namespace Action

/-- Two answers show the same: they are one failure or one object, or new containers with the same
content. -/
inductive AnswersAlike (workspace after : Workspace) :
    Except Failure (Option Object) → Except Failure (Option Object) → Prop where
  | same (answer : Except Failure (Option Object)) : AnswersAlike workspace after answer answer
  | renewed {ref other : Ref} {cell : Cell} (read : workspace.store.read? ref = some cell)
      (readOther : after.store.read? other = some cell) :
      AnswersAlike workspace after (.ok (some (.value (.cell ref)))) (.ok (some (.value (.cell other))))

/-- A question has answers that show the same in two states. -/
def AsBefore (workspace after : Workspace) (question : Action (Option Object)) : Prop :=
  AnswersAlike (question.run.run workspace).2 (question.run.run after).2
    (question.run.run workspace).1 (question.run.run after).1

/-- What a document is stays the same with another bag, and these questions change nothing. -/
theorem run_identityReader [Machine] {workspace after : Workspace} {number : Nat} {bag : Ref}
    (kept : after.document number = { workspace.document number with bag })
    (names : after.names = workspace.names) {method : String}
    (listed : method ∈ Document.identityReaders) :
    (callDocument number method []).run.run after =
      (((callDocument number method []).run.run workspace).1, after) := by
  have held : after.isHeld = workspace.isHeld := by
    funext collection
    rw [Workspace.isHeld, Workspace.isHeld, names]
  have collection : after.collectionOf (after.document number) =
      workspace.collectionOf (workspace.document number) := by
    rw [kept, Workspace.collectionOf, Workspace.collectionOf, held]
  simp only [Document.identityReaders, List.mem_cons, List.not_mem_nil, or_false] at listed
  rcases listed with rfl | rfl | rfl | rfl
  · rw [run_get_id, run_get_id, kept]
  · rw [run_get_sequence, run_get_sequence, kept]
  · rw [run_get_revision_id, run_get_revision_id, kept]
  · rw [run_get_collection, run_get_collection, collection]

section Later

variable {workspace after : Workspace} {number : Nat}

theorem AsBefore.of_answers {question : Action (Option Object)}
    {answer other : Except Failure (Option Object)} {between last : Workspace}
    (run : question.run.run workspace = (answer, between))
    (again : question.run.run after = (other, last)) (same : other = answer) :
    AsBefore workspace after question := by
  rw [AsBefore, run, again, same]
  exact .same answer

variable [Machine] (kept : after.document number = workspace.document number)
  (same : workspace.store.SameBelow after.store (.cell (workspace.document number).bag))

include kept same

/-- The list of keys is a new one with the same keys. -/
theorem asBefore_get_keys : AsBefore workspace after (callDocument number "get_keys" []) := by
  have keys : (after.document number).keys after.store =
      (workspace.document number).keys workspace.store := by
    rw [kept, Document.keys, Document.keys, Document.properties_eq_of_sameBelow same]
  rw [AsBefore, run_get_keys, run_get_keys, keys]
  simp only [Store.place, Store.placeItems_texts]
  exact .renewed (Store.read?_allocate_self ..) (Store.read?_allocate_self ..)

theorem asBefore_get_blob (intact : workspace.store.Intact (.cell (workspace.document number).bag))
    (grown : workspace.store.size ≤ after.store.size) (key : String) :
    AsBefore workspace after (callDocument number "get_blob" [.value (.text key)]) := by
  have below := Document.sameBelow_property same key
  have blob := below.asBlob (Document.intact_property intact key) grown
  rw [AsBefore, run_get_blob, run_get_blob, kept, Document.property_eq_of_sameBelow same,
    Store.referToBlob, Store.referToBlob, below.blob?, blob]
  cases workspace.store.blob? ((workspace.document number).property workspace.store key) with
  | some held => exact .same _
  | none =>
      cases workspace.store.asBlob ((workspace.document number).property workspace.store key) with
      | error failure => exact .same _
      | ok described =>
          cases described with
          | none => exact .same _
          | some made => exact .renewed (Store.read?_allocate_self ..) (Store.read?_allocate_self ..)

/-- A document whose bag, with all that is below it, is as it was answers as it did. -/
theorem asBefore_of_reads (names : after.names = workspace.names)
    (intact : workspace.store.Intact (.cell (workspace.document number).bag))
    (grown : workspace.store.size ≤ after.store.size) {method : String} {arguments : List Object}
    (reads : Document.Reads method arguments) :
    AsBefore workspace after (callDocument number method arguments) := by
  have properties := Document.properties_eq_of_sameBelow same
  rcases reads with ⟨listed, rfl⟩ | ⟨listed, rfl⟩ | ⟨getter, key, rfl⟩
  · rw [AsBefore, run_identityReader kept names listed, run_identityReader rfl rfl listed]
    exact .same _
  · simp only [Document.bagReaders, List.mem_cons, List.not_mem_nil, or_false] at listed
    rcases listed with rfl | rfl | rfl | rfl | rfl
    · exact .of_answers (run_get_data workspace number) (run_get_data after number) (by rw [kept])
    · exact .of_answers (run_to_dictionary workspace number) (run_to_dictionary after number)
        (by rw [kept])
    · refine .of_answers (run_to_json_string workspace number) (run_to_json_string after number) ?_
      rw [kept, Document.writeJson, Document.writeJson, same.unfold intact grown]
    · refine .of_answers (run_count workspace number) (run_count after number) ?_
      rw [kept, Document.count, Document.count, properties]
    · exact asBefore_get_keys kept same
  · rcases Document.mem_getters_cases getter with rfl | rfl | listed
    · refine .of_answers (run_contains workspace number key) (run_contains after number key) ?_
      rw [kept, Document.contains, Document.contains, properties]
    · exact asBefore_get_blob kept same intact grown key
    · obtain ⟨reading, read, run⟩ := run_valueGetter workspace number key listed
      obtain ⟨other, readOther, runOther⟩ := run_valueGetter after number key listed
      rw [kept, Document.read?_eq_of_sameBelow same, read] at readOther
      exact .of_answers run runOther (by rw [Option.some.inj readOther])

end Later

end Action

end DocumentStore
