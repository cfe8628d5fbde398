import DocumentStore.Document
import DocumentStore.Parameters
import DocumentStore.Settings
import DocumentStore.Engine.Choice
import DocumentStore.Expression.Builder
import DocumentStore.Expression.SortOrder
import DocumentStore.Expression.Index

/-!
Contract: all objects of a program at one time.

Owns: the tables of documents, collections, parameters, queries and engines, the
names that objects are held under, the log, and the actions that create and find
objects.

Does not own: what collections and queries do; each has a module of its own.

Objects that change are known by their number in a table; the others carry an
identity, given out once. A document knows its collection weakly: the link is followed
only while some name holds the collection.
-/

set_option autoImplicit false

namespace DocumentStore

/-- A collection of an engine. -/
structure Collection where
  engine : Nat
  address : Address
  deriving DecidableEq

/-- A query text with its parameters. -/
structure Query where
  engine : Nat
  database : String
  text : String
  parameters : Nat
  deriving DecidableEq

/-- Anything a name can be given to. -/
inductive Object where
  | value (value : Value)
  | document (number : Nat)
  | collection (number : Nat)
  | engine (number : Nat)
  | parameters (number : Nat)
  | query (number : Nat)
  | parameter (parameter : Parameter)
  | expression (identity : Identity) (expression : Expression)
  /-- The items of the aggregate with this identity. -/
  | expressions (identity : Identity) (items : List Expression)
  | sortOrder (identity : Identity) (order : SortOrder)
  | index (identity : Identity) (index : Index)
  | address (identity : Identity) (address : Address)
  | saved (identity : Identity) (result : SaveResult)
  | record (identity : Identity) (record : Record)

namespace Object

/-- The expression of a property of a document itself. Its identity is its place among them. -/
def documentProperty? (name : String) : Option Object := do
  let expression ← Table.value? Expression.documentProperties name
  return .expression ((Table.keys Expression.documentProperties).idxOf name) expression

/-- Whether two objects are one and the same. Values that are no containers have no identity
beyond being equal, and there is only one list without expressions. -/
def isSame : Object → Object → Bool
  | .value left, .value right => left == right
  | .document left, .document right => left == right
  | .collection left, .collection right => left == right
  | .engine left, .engine right => left == right
  | .parameters left, .parameters right => left == right
  | .query left, .query right => left == right
  | .parameter left, .parameter right => left.identity == right.identity
  | .expression left _, .expression right _ => left == right
  | .expressions left items, .expressions right others =>
      left == right || (items.isEmpty && others.isEmpty)
  | .sortOrder left _, .sortOrder right _ => left == right
  | .index left _, .index right _ => left == right
  | .address left _, .address right _ => left == right
  | .saved left _, .saved right _ => left == right
  | .record left _, .record right _ => left == right
  | _, _ => false

end Object

/-- The state of a program. -/
structure Workspace where
  store : Store
  settings : Settings
  documents : Array Document
  collections : Array Collection
  parameters : Array Parameters
  queries : Array Query
  engines : Array Engine
  names : Table String Object
  log : Array LogRecord
  /-- How many identifiers were made up so far. -/
  issued : Nat
  /-- The identity of the next object. -/
  nextIdentity : Identity
  /-- How parameters are written for engines. -/
  writer : Parameter.Writer

/-- A step of a program. A step that fails keeps what it changed before. -/
abbrev Action (α : Type) := ExceptT Failure (StateM Workspace) α

namespace Workspace

/-- The state at the start, under an environment. Parameters are written as copies where no other
writer is put in place. -/
def start (environment : Table String String) : Workspace :=
  ⟨.empty, .ofEnvironment environment, #[], #[], #[], #[], #[], [], #[], 0,
    Expression.documentProperties.length, .copying⟩

/-- A document by its number. -/
def document (workspace : Workspace) (number : Nat) : Document :=
  workspace.documents.getD number ⟨false, "", 0, none, 0, none⟩

/-- A collection by its number. -/
def collection (workspace : Workspace) (number : Nat) : Collection :=
  workspace.collections.getD number ⟨0, ⟨"", "", ""⟩⟩

/-- Parameters by their number. -/
def parametersOf (workspace : Workspace) (number : Nat) : Parameters :=
  workspace.parameters.getD number []

/-- A query by its number. -/
def query (workspace : Workspace) (number : Nat) : Query :=
  workspace.queries.getD number ⟨0, "", "", 0⟩

/-- Whether some name holds a collection. -/
def isHeld (workspace : Workspace) (collection : Nat) : Bool :=
  workspace.names.any fun entry =>
    match entry.2 with
    | .collection number => number == collection
    | _ => false

/-- The collection a document is linked to, while it is held. -/
def collectionOf (workspace : Workspace) (document : Document) : Option Nat :=
  document.collection.filter workspace.isHeld

/-- An identifier made up for a document that has none: a random-looking form whose last group
counts. -/
def madeUpIdentifier (issued : Nat) : String :=
  "00000000-0000-4000-8000-" ++ String.ofList (Text.hexDigits 12 issued)

end Workspace

namespace Action

/-- A name given to an object; a name holds one object at a time. -/
def bind (name : String) (object : Object) : Action Unit :=
  modify fun workspace => { workspace with names := Table.put workspace.names name object }

/-- A name taken back. -/
def forget (name : String) : Action Unit :=
  modify fun workspace => { workspace with names := Table.remove workspace.names name }

/-- An identity that no object has yet. -/
def newIdentity : Action Identity :=
  modifyGet fun workspace =>
    (workspace.nextIdentity, { workspace with nextIdentity := workspace.nextIdentity + 1 })

/-- Another environment. -/
def configure (environment : Table String String) : Action Unit :=
  modify fun workspace => { workspace with settings := .ofEnvironment environment }

/-- A record added to the log. -/
def report (record : LogRecord) : Action Unit :=
  modify fun workspace => { workspace with log := workspace.log.push record }

/-- The containers of a draft, allocated. -/
def place (draft : Draft) : Action Value :=
  modifyGet fun workspace =>
    let (value, store) := workspace.store.place draft
    (value, { workspace with store })

/-- A cell, allocated. -/
def allocate (cell : Cell) : Action Value :=
  modifyGet fun workspace =>
    let (ref, store) := workspace.store.allocate cell
    (.cell ref, { workspace with store })

/-- A change of the store. -/
def changeStore (change : Store → Store) : Action Unit :=
  modify fun workspace => { workspace with store := change workspace.store }

/-- A calculation over the store that can fail. -/
def consult {α : Type} (calculation : Store → Except Failure α) : Action α := do
  match calculation (← get).store with
  | .ok result => return result
  | .error failure => throw failure

/-- A new engine. -/
def newEngine (engine : Engine) : Action Nat :=
  modifyGet fun workspace =>
    (workspace.engines.size, { workspace with engines := workspace.engines.push engine })

/-- New parameters: none, or a copy of others. -/
def newParameters (source : Option Nat) : Action Nat :=
  modifyGet fun workspace =>
    let copied := (source.map workspace.parametersOf).getD []
    (workspace.parameters.size,
      { workspace with parameters := workspace.parameters.push copied })

/-- Parameters changed. -/
def changeParameters (number : Nat) (change : Parameters → Parameters) : Action Unit :=
  modify fun workspace =>
    { workspace with
      parameters := workspace.parameters.setIfInBounds number
        (change (workspace.parametersOf number)) }

/-- A new document. Without an identifier, or with an empty one, an identifier is made up;
without a bag it gets an empty one. -/
def newDocument (editable : Bool) (identifier : Option String) (sequence : Option Int)
    (revision : Option String) (bag : Option Ref) (collection : Option Nat) : Action Nat :=
  modifyGet fun workspace =>
    let (identifier, issued) :=
      match identifier with
      | some "" => (Workspace.madeUpIdentifier workspace.issued, workspace.issued + 1)
      | some given => (given, workspace.issued)
      | none => (Workspace.madeUpIdentifier workspace.issued, workspace.issued + 1)
    let (bag, store) :=
      match bag with
      | some bag => (bag, workspace.store)
      | none => workspace.store.allocate (.object [])
    let document : Document :=
      ⟨editable, identifier, sequence.getD 0, revision, bag, collection⟩
    (workspace.documents.size,
      { workspace with documents := workspace.documents.push document, store, issued })

/-- An editable document with the bag, the identity and the version of another one. -/
def editDocument (number : Nat) : Action Nat := do
  let workspace ← get
  let document := workspace.document number
  newDocument true (some document.identifier) (some document.sequence) document.revision
    (some document.bag) (workspace.collectionOf document)

/-- An editable document from a JSON text. -/
def readDocument (identifier : Option String) (text : String) : Action Nat := do
  let json ← consult fun _ => Document.readBag text
  match ← place json.draft with
  | .cell bag => newDocument true identifier (some 0) none (some bag) none
  | _ => newDocument true identifier (some 0) none none none

/-- A document changed. -/
def changeDocument (number : Nat) (change : Document → Document) : Action Unit :=
  modify fun workspace =>
    { workspace with
      documents := workspace.documents.setIfInBounds number
        (change (workspace.document number)) }

/-- A change of the store through a document. -/
def throughDocument (number : Nat) (change : Store → Document → Store) : Action Unit :=
  modify fun workspace =>
    { workspace with store := change workspace.store (workspace.document number) }

/-- A calculation over the store and a document that can fail. -/
def consultDocument {α : Type} (number : Nat)
    (calculation : Store → Document → Except Failure α) : Action α := do
  let workspace ← get
  match calculation workspace.store (workspace.document number) with
  | .ok result => return result
  | .error failure => throw failure

/-- A property set to the timestamp of a moment, or to null. -/
def setMoment (number : Nat) (key : String) (moment : Option Calendar.Moment) : Action Unit := do
  let store ← consultDocument number fun store document => document.setMoment store key moment
  changeStore fun _ => store

/-- Another bag for a document. -/
def setBag (number : Nat) (bag : Ref) : Action Unit :=
  modify fun workspace =>
    let (document, store) := (workspace.document number).setBag workspace.store bag
    { workspace with store, documents := workspace.documents.setIfInBounds number document }

variable [Machine]

/-- The blob of a property, as a value that refers to it. -/
def blobOf (number : Nat) (key : String) : Action Value := do
  let (value, store) ← consultDocument number fun store document =>
    store.referToBlob (document.property store key)
  changeStore fun _ => store
  return value

/-- A blob from a JSON text. -/
def readBlob (text : String) : Action Value := do
  match Blob.read text with
  | .ok blob => place blob.draft
  | .error fault => throw (.malformedBlob fault)

/-- A blob from the fields of its dictionary form. -/
def blobOfDictionary (fields : Table String Value) : Action Value := do
  place (← consult (·.blobOfDictionary fields)).draft

/-- What an engine does, done: its state afterwards, its reports and its reply. -/
def converse (engine : Nat) (act : Store → Engine → Outcome × Engine) : Action Reply := do
  let workspace ← get
  match workspace.engines[engine]? with
  | none => return .nothing
  | some state =>
      let (outcome, after) := act workspace.store state
      set { workspace with
        engines := workspace.engines.setIfInBounds engine after
        log := workspace.log ++ outcome.log }
      match outcome.result with
      | .ok reply => return reply
      | .error failure => throw failure

/-- A request put to an engine. -/
def request (engine : Nat) (request : Request Value) : Action Reply :=
  converse engine fun store => DocumentEngine.perform store request

/-- The bag of a record, in a container that the record has for itself. -/
def placeBag (bag : Draft) : Action Value := do
  let value ← place bag
  match bag, (← get).store.object? value with
  | .value _, some fields => allocate (.object fields)
  | _, _ => return value

/-- A reply as an object, its containers allocated. -/
def receive (reply : Reply) : Action Object := do
  match reply with
  | .value draft => return .value (← place draft)
  | .saved result => return .saved (← newIdentity) result
  | .record record =>
      return .record (← newIdentity) { record with data := .value (← placeBag record.data) }

end Action

end DocumentStore
