import DocumentStore.Proofs.Engine.StoredForm
import DocumentStore.Proofs.Heap.Mutation

/-!
Contract: the engine whose stored data are containers in the same store as the callers'.

Owns: this engine, its answers to all requests, the trees that its data are as long as nobody
else gets to them, and that it answers as the engine that keeps trees.

Does not own: what callers do between two requests.

Here a record refers to the containers of its bag and an index to those of its definition, so
nothing but the copies made on the way in and out keeps callers away from them. The data of a
record lie in a range of cells that no caller has; `Mirrors` says so for all of them.
-/

set_option autoImplicit false

namespace DocumentStore

/-- A stored document that refers to its bag. -/
structure ResidentDocument where
  identifier : String
  sequence : Nat
  generation : Nat
  revision : String
  data : Value

/-- The state of the engine. -/
structure Resident where
  documents : Table (Address × String) ResidentDocument
  contents : ContentStore
  indexes : Table (Address × String) Value
  expirations : Table (Address × String) String
  queries : List ExecutedQuery
  nextSequence : Nat

namespace Resident

/-- The engine at its start. -/
def empty : Resident :=
  ⟨[], [], [], [], [], 1⟩

/-- What a request comes to: the answer, and the engine and the store after it. -/
structure Turn where
  outcome : Outcome
  engine : Resident
  store : Store

section Requests

variable (resident : Resident) (store : Store)

def document? (collection : Address) (identifier : String) : Option ResidentDocument :=
  Table.value? resident.documents (collection, identifier)

/-- Whether a change based on one version may replace another. -/
def isConflict (document : ResidentDocument) (control : Option ConcurrencyControl)
    (sequence : Int) : Bool :=
  control == some .failOnConflict && (document.sequence : Int) != sequence

/-- A document saved: what its text reads as, with the blobs replaced, in containers of its own. -/
def save [Machine] (collection : Address) (identifier : String) (data : Value)
    (control : Option ConcurrencyControl) (sequence : Int) : Turn :=
  let existing := resident.document? collection identifier
  if existing.any (isConflict · control sequence) then
    ⟨.failed (.database (.conflict identifier)), resident, store⟩
  else
    match (store.unfold data).throughText true with
    | .error failure => ⟨.failed failure, resident, store⟩
    | .ok copied =>
        match ContentStore.detach resident.contents copied with
        | (.error fault, contents) => ⟨.failed (.bytes fault), { resident with contents }, store⟩
        | (.ok stored, contents) =>
            let generation : Nat := (existing.map (·.generation + 1)).getD 1
            let revision := revisionIdentifier generation stored
            let (value, after) := store.place stored.draft
            ⟨.answer (.saved ⟨identifier, some revision, resident.nextSequence⟩),
              { resident with
                documents := Table.put resident.documents (collection, identifier)
                  ⟨identifier, resident.nextSequence, generation, revision, value⟩
                contents
                nextSequence := resident.nextSequence + 1 },
              after⟩

/-- A document handed out: what the text of its data reads as, in new containers. -/
def load (collection : Address) (identifier : String) : Turn :=
  match resident.document? collection identifier with
  | none => ⟨.answer .nothing, resident, store⟩
  | some document =>
      match (store.unfold document.data).throughText false with
      | .error failure => ⟨.failed failure, resident, store⟩
      | .ok copied =>
          let (value, after) := store.place copied.draft
          ⟨.answer (.record ⟨document.identifier, document.sequence, some document.revision,
            .value value⟩), resident, after⟩

/-- Everything known about a document removed. -/
def forget (collection : Address) (identifier : String) : Resident :=
  { resident with
    documents := Table.remove resident.documents (collection, identifier)
    expirations := Table.remove resident.expirations (collection, identifier) }

def delete (collection : Address) (identifier : String) (control : Option ConcurrencyControl)
    (sequence : Int) : Turn :=
  match resident.document? collection identifier with
  | none => ⟨.failed (.database (.notFound identifier)), resident, store⟩
  | some existing =>
      if isConflict existing control sequence then
        ⟨.failed (.database (.conflict identifier)), resident, store⟩
      else ⟨.answer .nothing, resident.forget collection identifier, store⟩

def purge (collection : Address) (identifier : String) : Turn :=
  match resident.document? collection identifier with
  | none => ⟨.failed (.database (.notFound identifier)), resident, store⟩
  | some _ => ⟨.answer .nothing, resident.forget collection identifier, store⟩

/-- The digest that a property of a stored document names, if it names anything. -/
def digest? (document : ResidentDocument) (key : String) : Option Value :=
  match store.object? document.data with
  | some fields =>
      match (Table.value? fields key).bind store.object? with
      | some metadata => Table.value? metadata "digest"
      | none => none
  | none => none

/-- The content of a blob. A digest that is a container cannot be looked up at all. -/
def blobContent (collection : Address) (identifier key : String) :
    Except Failure Digest.Bytes :=
  match (resident.document? collection identifier).bind (digest? store · key) with
  | some (.cell ref) =>
      match store.kind (.cell ref) with
      | .array => .error (.unhashable .array)
      | .object => .error (.unhashable .object)
      | _ => .error (.database (.blobNotFound key identifier))
  | some (.text digest) =>
      match Table.value? resident.contents digest with
      | some content => .ok content
      | none => .error (.database (.blobNotFound key identifier))
  | _ => .error (.database (.blobNotFound key identifier))

def createIndex (collection : Address) (name : String) (definition : Value) : Turn :=
  match (store.unfold definition).throughText false with
  | .error failure => ⟨.failed failure, resident, store⟩
  | .ok copied =>
      let (value, after) := store.place copied.draft
      ⟨⟨.ok .nothing, [⟨.info, Memory.logger,
          "Registered index " ++ name ++ " on " ++ collection.fullName⟩]⟩,
        { resident with indexes := Table.put resident.indexes (collection, name) value }, after⟩

def setExpiration (collection : Address) (identifier : String) (expiration : Option String) :
    Turn :=
  match resident.document? collection identifier with
  | none => ⟨.failed (.database (.notFound identifier)), resident, store⟩
  | some _ =>
      match expiration with
      | none =>
          ⟨.answer .nothing, { resident with
            expirations := Table.remove resident.expirations (collection, identifier) }, store⟩
      | some time =>
          ⟨.answer .nothing, { resident with
            expirations := Table.put resident.expirations (collection, identifier) time }, store⟩

/-- The answer to a request, and what is there after it. -/
def step [Machine] : Request Value → Turn
  | .save collection identifier data control sequence =>
      resident.save store collection identifier data control sequence
  | .getDocument collection identifier => resident.load store collection identifier
  | .deleteDocument collection identifier control sequence =>
      resident.delete store collection identifier control sequence
  | .purgeDocument collection identifier => resident.purge store collection identifier
  | .getBlobContent collection identifier key =>
      ⟨⟨(resident.blobContent store collection identifier key).map fun content =>
        .value (.value (.bytes content)), []⟩, resident, store⟩
  | .createIndex collection name definition =>
      resident.createIndex store collection name definition
  | .deleteIndex collection name =>
      ⟨.answer .nothing,
        { resident with indexes := Table.remove resident.indexes (collection, name) }, store⟩
  | .getIndexes collection =>
      ⟨.answer (.value (.array ((Memory.inOrder (Memory.namesIn resident.indexes collection)).map
        Draft.text))), resident, store⟩
  | .getCount collection =>
      ⟨.answer (.value (.value (.integer (Memory.namesIn resident.documents collection).length))),
        resident, store⟩
  | .setExpiration collection identifier expiration =>
      resident.setExpiration store collection identifier expiration
  | .getExpiration collection identifier =>
      ⟨.answer (.value (.optionalText
        (Table.value? resident.expirations (collection, identifier)))), resident, store⟩
  | .executeQuery database query parameters =>
      ⟨.answer (.value (.array [])),
        { resident with queries := resident.queries ++ [⟨database, query, parameters⟩] }, store⟩
  | .explainQuery _ _ _ => ⟨.answer (.value (.text "")), resident, store⟩

end Requests

end Resident

/-! ### Data that nobody else gets to -/

namespace Store

/-- A value is a JSON tree in cells of its own, none of which is among those of the callers. -/
def Shelters (store : Store) (mine : Ref → Prop) (value : Value) (json : Json) : Prop :=
  json.WellKeyed ∧ ∃ start finish : Nat, store.Laid start finish value json
    ∧ finish ≤ store.size ∧ ∀ ref : Nat, start ≤ ref → ref < finish → ¬mine ref

section Shelters

variable {store after : Store} {mine grown : Ref → Prop} {value : Value} {json : Json}

theorem Shelters.unfold_eq (shelters : store.Shelters mine value json) :
    store.unfold value = json.toTree := by
  obtain ⟨_, start, finish, laid, present, _⟩ := shelters
  exact laid.unfold_eq present

/-- What callers do to their own cells leaves sheltered data as they are. -/
theorem Shelters.of_changesOnly (shelters : store.Shelters mine value json)
    (changes : store.ChangesOnly after mine grown) : after.Shelters grown value json := by
  obtain ⟨wellKeyed, start, finish, laid, present, apart⟩ := shelters
  refine ⟨wellKeyed, start, finish, laid.of_agree ?_, Nat.le_trans present changes.size_le, ?_⟩
  · intro ref low high
    exact changes.others ref (apart ref low high) (Nat.lt_of_lt_of_le high present)
  · intro ref low high owned
    rcases changes.gained ref owned with old | new
    · exact apart ref low high old
    · exact Nat.lt_irrefl _ (Nat.lt_of_lt_of_le high (Nat.le_trans present new))

theorem shelters_place (closed : store.Closed mine) (wellKeyed : json.WellKeyed) :
    (store.place json.draft).2.Shelters mine (store.place json.draft).1 json := by
  refine ⟨wellKeyed, _, _, laid_place json wellKeyed store, Nat.le_refl _, ?_⟩
  intro ref low high owned
  exact Nat.lt_irrefl _ (Nat.lt_of_lt_of_le (closed.present ref owned) low)

theorem Shelters.unshared (shelters : store.Shelters mine value json) : store.Unshared value := by
  obtain ⟨_, start, finish, laid, present, _⟩ := shelters
  exact laid.unshared present

/-- No caller has a container of sheltered data. -/
theorem Shelters.separate (shelters : store.Shelters mine value json) (closed : store.Closed mine)
    {other : Value} (within : other.Within mine) : store.Separate other value := by
  obtain ⟨_, start, finish, laid, _, apart⟩ := shelters
  intro position sought ref found foundInside
  have bounds := (laid.fits_at? foundInside).bounds
  exact apart ref bounds.1 bounds.2 (closed.at? within found ref rfl)

end Shelters

end Store

namespace Resident

/-- A stored document with its bag in cells of its own is a stored document with a tree. -/
structure SameVersion (store : Store) (mine : Ref → Prop) (document : ResidentDocument)
    (stored : StoredDocument) : Prop where
  identifier : document.identifier = stored.identifier
  sequence : document.sequence = stored.sequence
  generation : document.generation = stored.generation
  revision : document.revision = stored.revision
  data : store.Shelters mine document.data stored.data

/-- The engine with containers is the engine with trees, and no caller has its containers. -/
structure Mirrors (resident : Resident) (store : Store) (mine : Ref → Prop) (memory : Memory) :
    Prop where
  documents : Table.Fieldwise (SameVersion store mine) resident.documents memory.documents
  contents : resident.contents = memory.contents
  indexes : Table.Fieldwise (store.Shelters mine) resident.indexes memory.indexes
  expirations : resident.expirations = memory.expirations
  queries : resident.queries = memory.queries
  nextSequence : resident.nextSequence = memory.nextSequence

theorem mirrors_empty (store : Store) (mine : Ref → Prop) :
    empty.Mirrors store mine Memory.empty where
  documents := .nil
  contents := rfl
  indexes := .nil
  expirations := rfl
  queries := rfl
  nextSequence := rfl

section Mirroring

variable {resident : Resident} {store after : Store} {mine grown : Ref → Prop} {memory : Memory}
  {collection : Address} {identifier : String}

theorem SameVersion.of_changesOnly {document : ResidentDocument} {stored : StoredDocument}
    (same : SameVersion store mine document stored)
    (changes : store.ChangesOnly after mine grown) : SameVersion after grown document stored :=
  { same with data := same.data.of_changesOnly changes }

/-- What callers do between two requests does not show in the engine. -/
theorem Mirrors.of_changesOnly (mirrors : resident.Mirrors store mine memory)
    (changes : store.ChangesOnly after mine grown) : resident.Mirrors after grown memory :=
  { mirrors with
    documents := mirrors.documents.mono fun _ _ same => same.of_changesOnly changes
    indexes := mirrors.indexes.mono fun _ _ shelters => shelters.of_changesOnly changes }

theorem Mirrors.document? (mirrors : resident.Mirrors store mine memory) (collection : Address)
    (identifier : String) :
    (resident.document? collection identifier = none
        ∧ memory.document? collection identifier = none)
      ∨ ∃ document stored, resident.document? collection identifier = some document
        ∧ memory.document? collection identifier = some stored
        ∧ SameVersion store mine document stored := by
  cases found : resident.document? collection identifier with
  | none => exact .inl ⟨rfl, mirrors.documents.value?_eq_none found⟩
  | some document =>
      obtain ⟨stored, foundStored, same⟩ := mirrors.documents.value?_eq_some found
      exact .inr ⟨document, stored, rfl, foundStored, same⟩

/-- An answer of the engine with containers is the answer of the engine with trees, and so is
what is there after it. -/
structure Follows (turn : Turn) (answer : Outcome × Memory) (store : Store) (mine : Ref → Prop) :
    Prop where
  outcome : turn.outcome = answer.1
  changes : store.ChangesOnly turn.store mine mine
  mirrors : turn.engine.Mirrors turn.store mine answer.2

/-! ### Saving -/

theorem Mirrors.any_isConflict (mirrors : resident.Mirrors store mine memory)
    (control : Option ConcurrencyControl) (sequence : Int) :
    (resident.document? collection identifier).any (isConflict · control sequence) =
      (memory.document? collection identifier).any (Memory.isConflict · control sequence) := by
  rcases mirrors.document? collection identifier with
    ⟨absent, absentThere⟩ | ⟨document, stored, found, foundStored, same⟩
  · rw [absent, absentThere]
    rfl
  · rw [found, foundStored, Option.any_some, Option.any_some, isConflict, Memory.isConflict,
      same.sequence]

theorem Mirrors.generation (mirrors : resident.Mirrors store mine memory) (collection : Address)
    (identifier : String) :
    ((resident.document? collection identifier).map (·.generation + 1)).getD 1 =
      ((memory.document? collection identifier).map (·.generation + 1)).getD 1 := by
  rcases mirrors.document? collection identifier with
    ⟨absent, absentThere⟩ | ⟨document, stored, found, foundStored, same⟩
  · rw [absent, absentThere]
    rfl
  · rw [found, foundStored, Option.map_some, Option.map_some, same.generation]

theorem follows_save [Machine] (mirrors : resident.Mirrors store mine memory)
    (closed : store.Closed mine) (data : Value) (control : Option ConcurrencyControl)
    (sequence : Int) :
    Follows (resident.save store collection identifier data control sequence)
      (memory.step (.save collection identifier (store.unfold data) control sequence)) store
      mine := by
  have generation := mirrors.generation collection identifier
  simp only [save, Memory.step, Memory.save, mirrors.any_isConflict, mirrors.contents,
    mirrors.nextSequence, generation]
  split
  · exact ⟨rfl, .refl closed, mirrors⟩
  · cases copying : (store.unfold data).throughText true with
    | error failure => exact ⟨rfl, .refl closed, mirrors⟩
    | ok copied =>
        dsimp only
        cases detaching : ContentStore.detach memory.contents copied with
        | mk result contents =>
            cases result with
            | error fault =>
                exact ⟨rfl, .refl closed, { mirrors with contents := rfl, nextSequence := rfl }⟩
            | ok stored =>
                have wellKeyed : stored.WellKeyed := by
                  obtain ⟨json, _, rfl⟩ := Tree.throughText_eq_ok copying
                  apply ContentStore.wellKeyed_detached _ json.wellKeyed_merged
                  rw [← ContentStore.detach_fst memory.contents, detaching]
                have changes : store.ChangesOnly (store.place stored.draft).2 mine mine :=
                  .of_extends closed (Store.extends_place store stored.draft)
                have kept := mirrors.of_changesOnly changes
                have same := Store.shelters_place closed wellKeyed
                exact ⟨rfl, changes, { kept with
                  documents := kept.documents.put _ ⟨rfl, rfl, rfl, rfl, same⟩
                  contents := rfl
                  nextSequence := rfl }⟩

/-! ### Requests that bring no data -/

theorem Mirrors.forget (mirrors : resident.Mirrors store mine memory) :
    (resident.forget collection identifier).Mirrors store mine
      (memory.forget collection identifier) :=
  { mirrors with
    documents := mirrors.documents.remove _
    expirations := congrArg (Table.remove · _) mirrors.expirations }

theorem follows_delete [Machine] (mirrors : resident.Mirrors store mine memory)
    (closed : store.Closed mine) (control : Option ConcurrencyControl) (sequence : Int) :
    Follows (resident.delete store collection identifier control sequence)
      (memory.step (.deleteDocument collection identifier control sequence)) store mine := by
  simp only [delete, Memory.step, Memory.delete]
  rcases mirrors.document? collection identifier with
    ⟨absent, absentThere⟩ | ⟨document, stored, found, foundStored, same⟩
  · rw [absent, absentThere]
    exact ⟨rfl, .refl closed, mirrors⟩
  · have check : isConflict document control sequence =
        Memory.isConflict stored control sequence := by
      rw [isConflict, Memory.isConflict, same.sequence]
    rw [found, foundStored]
    dsimp only
    rw [check]
    split
    · exact ⟨rfl, .refl closed, mirrors⟩
    · exact ⟨rfl, .refl closed, mirrors.forget⟩

theorem follows_purge [Machine] (mirrors : resident.Mirrors store mine memory)
    (closed : store.Closed mine) :
    Follows (resident.purge store collection identifier)
      (memory.step (.purgeDocument collection identifier)) store mine := by
  simp only [purge, Memory.step, Memory.purge]
  rcases mirrors.document? collection identifier with
    ⟨absent, absentThere⟩ | ⟨document, stored, found, foundStored, same⟩
  · rw [absent, absentThere]
    exact ⟨rfl, .refl closed, mirrors⟩
  · rw [found, foundStored]
    exact ⟨rfl, .refl closed, mirrors.forget⟩

theorem follows_setExpiration [Machine] (mirrors : resident.Mirrors store mine memory)
    (closed : store.Closed mine) (expiration : Option String) :
    Follows (resident.setExpiration store collection identifier expiration)
      (memory.step (.setExpiration collection identifier expiration)) store mine := by
  simp only [setExpiration, Memory.step, Memory.setExpiration]
  rcases mirrors.document? collection identifier with
    ⟨absent, absentThere⟩ | ⟨document, stored, found, foundStored, same⟩
  · rw [absent, absentThere]
    exact ⟨rfl, .refl closed, mirrors⟩
  · rw [found, foundStored]
    cases expiration with
    | none =>
        exact ⟨rfl, .refl closed,
          { mirrors with expirations := congrArg (Table.remove · _) mirrors.expirations }⟩
    | some time =>
        exact ⟨rfl, .refl closed,
          { mirrors with expirations := congrArg (Table.put · _ time) mirrors.expirations }⟩

theorem follows_createIndex [Machine] (mirrors : resident.Mirrors store mine memory)
    (closed : store.Closed mine) (name : String) (definition : Value) :
    Follows (resident.createIndex store collection name definition)
      (memory.step (.createIndex collection name (store.unfold definition))) store mine := by
  simp only [createIndex, Memory.step, Memory.createIndex]
  cases copying : (store.unfold definition).throughText false with
  | error failure => exact ⟨rfl, .refl closed, mirrors⟩
  | ok copied =>
      have wellKeyed : copied.WellKeyed := by
        obtain ⟨json, _, rfl⟩ := Tree.throughText_eq_ok copying
        exact json.wellKeyed_merged
      have changes : store.ChangesOnly (store.place copied.draft).2 mine mine :=
        .of_extends closed (Store.extends_place store copied.draft)
      have kept := mirrors.of_changesOnly changes
      refine ⟨rfl, changes, { kept with indexes := ?_ }⟩
      exact kept.indexes.put _ (Store.shelters_place closed wellKeyed)

/-! ### The content of a blob -/

/-- The digest that a property names is found in the containers as it is in the tree. -/
theorem SameVersion.digest? {document : ResidentDocument} {stored : StoredDocument}
    (same : SameVersion store mine document stored) (key : String) :
    (digest? store document key = none ∧ Memory.digest? stored key = none)
      ∨ ∃ value json, digest? store document key = some value
        ∧ Memory.digest? stored key = some json ∧ store.IsLaid value json := by
  obtain ⟨_, start, finish, laid, _, _⟩ := same.data
  unfold Resident.digest? Memory.digest?
  rcases Store.IsLaid.object? ⟨start, finish, laid⟩ with
    ⟨absent, other⟩ | ⟨fields, jsons, found, isObject, fieldwise⟩
  · rw [absent]
    refine .inl ⟨rfl, ?_⟩
    split
    · next fields isObject => exact absurd isObject (other fields)
    · rfl
  · rw [found, isObject]
    dsimp only
    cases held : Table.value? fields key with
    | none =>
        rw [fieldwise.value?_eq_none held]
        exact .inl ⟨rfl, rfl⟩
    | some value =>
        obtain ⟨json, heldJson, laidValue⟩ := fieldwise.value?_eq_some held
        rw [heldJson, Option.bind_some]
        rcases laidValue.object? with
          ⟨absent, other⟩ | ⟨metadata, jsons, found, rfl, metadataFieldwise⟩
        · rw [absent]
          refine .inl ⟨rfl, ?_⟩
          split
          · next metadata isObject => exact absurd (Option.some.inj isObject) (other metadata)
          · rfl
        · rw [found]
          dsimp only
          cases named : Table.value? metadata "digest" with
          | none =>
              rw [metadataFieldwise.value?_eq_none named]
              exact .inl ⟨rfl, rfl⟩
          | some digest =>
              obtain ⟨json, namedJson, laidDigest⟩ := metadataFieldwise.value?_eq_some named
              rw [namedJson]
              exact .inr ⟨digest, json, rfl, rfl, laidDigest⟩

theorem Mirrors.blobContent_eq (mirrors : resident.Mirrors store mine memory) (key : String) :
    resident.blobContent store collection identifier key =
      memory.blobContent collection identifier key := by
  unfold blobContent Memory.blobContent
  rcases mirrors.document? collection identifier with
    ⟨absent, absentThere⟩ | ⟨document, stored, found, foundStored, same⟩
  · rw [absent, absentThere]
    rfl
  · rw [found, foundStored, Option.bind_some, Option.bind_some]
    rcases same.digest? key with ⟨absent, absentThere⟩ | ⟨value, json, named, namedJson, laid⟩
    · rw [absent, absentThere]
    · rw [named, namedJson]
      obtain ⟨start, finish, laid⟩ := laid
      cases laid with
      | leaf _ plain =>
          cases json with
          | array => cases plain
          | object => cases plain
          | text digest =>
              cases plain
              cases found : Table.value? memory.contents digest with
              | none => simp only [mirrors.contents, found]
              | some content => simp only [mirrors.contents, found]
          | _ => cases plain; rfl
      | array read each =>
          dsimp only
          rw [Store.kind, read]
      | object read each =>
          dsimp only
          rw [Store.kind, read]

/-! ### All requests -/

/-- The engine with containers answers every request but a load as the engine with trees. -/
theorem follows_step [Machine] (mirrors : resident.Mirrors store mine memory)
    (closed : store.Closed mine) (request : Request Value)
    (other : ∀ collection identifier, request ≠ .getDocument collection identifier) :
    Follows (resident.step store request) (memory.step (request.map store.unfold)) store mine := by
  cases request with
  | save collection identifier data control sequence =>
      exact follows_save mirrors closed data control sequence
  | getDocument collection identifier => exact absurd rfl (other collection identifier)
  | deleteDocument collection identifier control sequence =>
      exact follows_delete mirrors closed control sequence
  | purgeDocument collection identifier => exact follows_purge mirrors closed
  | getBlobContent collection identifier key =>
      refine ⟨?_, .refl closed, mirrors⟩
      simp only [step, Request.map, Memory.step, mirrors.blobContent_eq]
  | createIndex collection name definition =>
      exact follows_createIndex mirrors closed name definition
  | deleteIndex collection name =>
      exact ⟨rfl, .refl closed, { mirrors with indexes := mirrors.indexes.remove _ }⟩
  | getIndexes collection =>
      refine ⟨?_, .refl closed, mirrors⟩
      simp only [step, Request.map, Memory.step, Memory.indexNames, Memory.namesIn,
        mirrors.indexes.keys_eq]
  | getCount collection =>
      refine ⟨?_, .refl closed, mirrors⟩
      simp only [step, Request.map, Memory.step, Memory.count, Memory.namesIn,
        mirrors.documents.keys_eq]
  | setExpiration collection identifier expiration =>
      exact follows_setExpiration mirrors closed expiration
  | getExpiration collection identifier =>
      refine ⟨?_, .refl closed, mirrors⟩
      simp only [step, Request.map, Memory.step, mirrors.expirations]
  | executeQuery database query parameters =>
      exact ⟨rfl, .refl closed,
        { mirrors with queries := congrArg (List.append · _) mirrors.queries }⟩
  | explainQuery database query parameters => exact ⟨rfl, .refl closed, mirrors⟩

/-- A load hands out the stored tree in new containers, if this tree has a text. -/
theorem Mirrors.load_cases (mirrors : resident.Mirrors store mine memory) (collection : Address)
    (identifier : String) :
    (memory.document? collection identifier = none
        ∧ resident.load store collection identifier = ⟨.answer .nothing, resident, store⟩)
      ∨ ∃ stored, memory.document? collection identifier = some stored ∧ stored.data.WellKeyed
        ∧ ((∃ failure, stored.data.toTree.throughText false = .error failure
            ∧ resident.load store collection identifier = ⟨.failed failure, resident, store⟩)
          ∨ (stored.data.toTree.throughText false = .ok stored.data
            ∧ resident.load store collection identifier =
              ⟨.answer (.record ⟨stored.identifier, stored.sequence, some stored.revision,
                .value (store.place stored.data.draft).1⟩), resident,
                (store.place stored.data.draft).2⟩)) := by
  unfold load
  rcases mirrors.document? collection identifier with
    ⟨absent, absentThere⟩ | ⟨document, stored, found, foundStored, same⟩
  · rw [absent]
    exact .inl ⟨absentThere, rfl⟩
  · refine .inr ⟨stored, foundStored, same.data.1, ?_⟩
    rw [found]
    dsimp only
    rw [same.data.unfold_eq, same.identifier, same.sequence, same.revision]
    cases copying : stored.data.toTree.throughText false with
    | error failure => exact .inl ⟨failure, rfl, rfl⟩
    | ok copied =>
        obtain ⟨json, converted, rfl⟩ := Tree.throughText_eq_ok copying
        rw [Tree.toJson_toTree _ converted, Json.merged_of_wellKeyed _ same.data.1]
        exact .inr ⟨rfl, rfl⟩

end Mirroring

end Resident

end DocumentStore
