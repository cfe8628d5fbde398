import DocumentStore.Engine.Request
import DocumentStore.Engine.Revision
import DocumentStore.Engine.Content
import DocumentStore.Json.Copy

/-!
Contract: the engine that keeps everything in memory.

Owns: the stored documents with their versions, the content store, the registry of
indexes, the expirations, the log of queries, and the answer to every request.

Does not own: the callers' containers. What is stored went through JSON text first,
so it shares nothing with them; of a query's parameters the log keeps the reference
it was given.

Sequences are counted over all collections. A request that fails leaves the
documents, the expirations, the indexes, the queries and the count as they were.
-/

set_option autoImplicit false

namespace DocumentStore

/-- A stored document. -/
structure StoredDocument where
  identifier : String
  sequence : Nat
  generation : Nat
  revision : String
  data : Json

/-- A query that was executed. -/
structure ExecutedQuery where
  database : String
  query : String
  parameters : Value
  deriving DecidableEq

/-- The state of the engine. -/
structure Memory where
  documents : Table (Address × String) StoredDocument
  contents : ContentStore
  indexes : Table (Address × String) Json
  expirations : Table (Address × String) String
  queries : List ExecutedQuery
  /-- The sequence of the next document saved. -/
  nextSequence : Nat

namespace Memory

/-- The engine at its start. -/
def empty : Memory :=
  ⟨[], [], [], [], [], 1⟩

/-- The logger of the engine. -/
def logger : String :=
  "doclite.db.memory"

/-- The stored document of an address and an identifier. -/
def document? (memory : Memory) (collection : Address) (identifier : String) :
    Option StoredDocument :=
  Table.value? memory.documents (collection, identifier)

/-- Whether a change based on one version may replace another. -/
def isConflict (stored : StoredDocument) (control : Option ConcurrencyControl)
    (sequence : Int) : Bool :=
  control == some .failOnConflict && (stored.sequence : Int) != sequence

/-- A document saved. The conflict check comes first, then the copy, then the blobs, and the
record last. -/
def save [Machine] (memory : Memory) (collection : Address) (identifier : String) (data : Tree)
    (control : Option ConcurrencyControl) (sequence : Int) : Except Failure SaveResult × Memory :=
  let existing := memory.document? collection identifier
  if existing.any (isConflict · control sequence) then
    (.error (.database (.conflict identifier)), memory)
  else
    match data.throughText true with
    | .error failure => (.error failure, memory)
    | .ok copied =>
        match ContentStore.detach memory.contents copied with
        | (.error fault, contents) => (.error (.bytes fault), { memory with contents })
        | (.ok stored, contents) =>
            let generation : Nat := (existing.map (·.generation + 1)).getD 1
            let revision := revisionIdentifier generation stored
            let record : StoredDocument :=
              ⟨identifier, memory.nextSequence, generation, revision, stored⟩
            (.ok ⟨identifier, some revision, memory.nextSequence⟩,
              { memory with
                documents := Table.put memory.documents (collection, identifier) record
                contents
                nextSequence := memory.nextSequence + 1 })

/-- A stored document as it is handed out. -/
def record (stored : StoredDocument) : Record :=
  ⟨stored.identifier, stored.sequence, some stored.revision, stored.data.draft⟩

/-- Everything known about a document removed. -/
def forget (memory : Memory) (collection : Address) (identifier : String) : Memory :=
  { memory with
    documents := Table.remove memory.documents (collection, identifier)
    expirations := Table.remove memory.expirations (collection, identifier) }

/-- A document deleted, unless it is not there or was changed. -/
def delete (memory : Memory) (collection : Address) (identifier : String)
    (control : Option ConcurrencyControl) (sequence : Int) : Except Failure Unit × Memory :=
  match memory.document? collection identifier with
  | none => (.error (.database (.notFound identifier)), memory)
  | some existing =>
      if isConflict existing control sequence then
        (.error (.database (.conflict identifier)), memory)
      else (.ok (), memory.forget collection identifier)

/-- A document purged, unless it is not there. -/
def purge (memory : Memory) (collection : Address) (identifier : String) :
    Except Failure Unit × Memory :=
  match memory.document? collection identifier with
  | none => (.error (.database (.notFound identifier)), memory)
  | some _ => (.ok (), memory.forget collection identifier)

/-- The digest that a property of a stored document names, if it names anything. -/
def digest? (stored : StoredDocument) (key : String) : Option Json :=
  match stored.data with
  | .object fields =>
      match Table.value? fields key with
      | some (.object metadata) => Table.value? metadata "digest"
      | _ => none
  | _ => none

/-- The content of a blob. A digest that is a container cannot be looked up at all. -/
def blobContent (memory : Memory) (collection : Address) (identifier key : String) :
    Except Failure Digest.Bytes :=
  match (memory.document? collection identifier).bind (digest? · key) with
  | some (.array _) => .error (.unhashable .array)
  | some (.object _) => .error (.unhashable .object)
  | some (.text digest) =>
      match Table.value? memory.contents digest with
      | some content => .ok content
      | none => .error (.database (.blobNotFound key identifier))
  | _ => .error (.database (.blobNotFound key identifier))

/-- A definition stored under the name of an index. -/
def createIndex (memory : Memory) (collection : Address) (name : String) (definition : Tree) :
    Except Failure Unit × Memory :=
  match definition.throughText false with
  | .error failure => (.error failure, memory)
  | .ok copied =>
      (.ok (), { memory with indexes := Table.put memory.indexes (collection, name) copied })

/-- The second parts of the keys of a collection. -/
def namesIn {α : Type} (table : Table (Address × String) α) (collection : Address) :
    List String :=
  ((Table.keys table).filter (·.1 = collection)).map Prod.snd

/-- Names in the order of their code points. -/
def inOrder (names : List String) : List String :=
  names.mergeSort fun left right => decide (left ≤ right)

/-- The names of the indexes of a collection, in order. -/
def indexNames (memory : Memory) (collection : Address) : List String :=
  inOrder (namesIn memory.indexes collection)

/-- The number of documents in a collection. -/
def count (memory : Memory) (collection : Address) : Nat :=
  (namesIn memory.documents collection).length

/-- An expiration set or, for none, cleared. -/
def setExpiration (memory : Memory) (collection : Address) (identifier : String)
    (expiration : Option String) : Except Failure Unit × Memory :=
  match memory.document? collection identifier with
  | none => (.error (.database (.notFound identifier)), memory)
  | some _ =>
      match expiration with
      | none =>
          (.ok (), { memory with
            expirations := Table.remove memory.expirations (collection, identifier) })
      | some time =>
          (.ok (), { memory with
            expirations := Table.put memory.expirations (collection, identifier) time })

/-- The answer that says nothing, or the failure. -/
def outcome (result : Except Failure Unit) : Outcome :=
  ⟨result.map fun _ => .nothing, []⟩

/-- The answer to a request, and the state after it. -/
def step [Machine] (memory : Memory) : Request Tree → Outcome × Memory
  | .save collection identifier data control sequence =>
      let (result, after) := memory.save collection identifier data control sequence
      (⟨result.map .saved, []⟩, after)
  | .getDocument collection identifier =>
      match memory.document? collection identifier with
      | none => (.answer .nothing, memory)
      | some stored => (.answer (.record (record stored)), memory)
  | .deleteDocument collection identifier control sequence =>
      let (result, after) := memory.delete collection identifier control sequence
      (outcome result, after)
  | .purgeDocument collection identifier =>
      let (result, after) := memory.purge collection identifier
      (outcome result, after)
  | .getBlobContent collection identifier key =>
      (⟨(memory.blobContent collection identifier key).map fun content =>
        .value (.value (.bytes content)), []⟩, memory)
  | .createIndex collection name definition =>
      let (result, after) := memory.createIndex collection name definition
      match result with
      | .error failure => (.failed failure, after)
      | .ok () =>
          (⟨.ok .nothing,
            [⟨.info, logger, "Registered index " ++ name ++ " on " ++ collection.fullName⟩]⟩, after)
  | .deleteIndex collection name =>
      (.answer .nothing, { memory with indexes := Table.remove memory.indexes (collection, name) })
  | .getIndexes collection =>
      (.answer (.value (.array ((memory.indexNames collection).map Draft.text))), memory)
  | .getCount collection =>
      (.answer (.value (.value (.integer (memory.count collection)))), memory)
  | .setExpiration collection identifier expiration =>
      let (result, after) := memory.setExpiration collection identifier expiration
      (outcome result, after)
  | .getExpiration collection identifier =>
      (.answer (.value (.optionalText
        (Table.value? memory.expirations (collection, identifier)))), memory)
  | .executeQuery database query parameters =>
      (.answer (.value (.array [])),
        { memory with queries := memory.queries ++ [⟨database, query, parameters⟩] })
  | .explainQuery _ _ _ => (.answer (.value (.text "")), memory)

/-- The answers to several requests in turn, and the state after them. -/
def run [Machine] (memory : Memory) : List (Request Tree) → List Outcome × Memory
  | [] => ([], memory)
  | request :: rest =>
      let (outcome, after) := memory.step request
      let (outcomes, final) := run after rest
      (outcome :: outcomes, final)

instance [Machine] : DocumentEngine Memory where
  perform store request memory := memory.step (request.map store.unfold)

end Memory

end DocumentStore
