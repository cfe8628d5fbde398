import DocumentStore.Workspace.Basic

/-!
Contract: what a collection does.

Owns: the requests a collection puts to its engine, what it reports, and what it
writes back into documents.

Does not own: the answers; an engine's failure reaches the caller as it is.
-/

set_option autoImplicit false

namespace DocumentStore.Action

/-- The logger of collections. -/
def collectionLogger : String :=
  "doclite.core.collection"

/-- A new collection; the settings give the names that are missing or empty. -/
def newCollection (engine : Nat) (name scope database : Option String) : Action Nat :=
  modifyGet fun workspace =>
    let settings := workspace.settings
    let address : Address :=
      ⟨Settings.orElse database settings.database, Settings.orElse scope settings.scope,
        Settings.orElse name settings.collection⟩
    (workspace.collections.size,
      { workspace with collections := workspace.collections.push ⟨engine, address⟩ })

variable [Machine]

/-- A request put to the engine of a collection. -/
def requestOf (number : Nat) (make : Address → Request Value) : Action Reply := do
  let collection := (← get).collection number
  request collection.engine (make collection.address)

/-- A report about something in a collection. -/
def reportIn (number : Nat) (level : LogLevel) (about preposition : String) : Action Unit := do
  let collection := (← get).collection number
  report ⟨level, collectionLogger,
    about ++ " " ++ preposition ++ " " ++ collection.address.fullName⟩

/-- A document saved; what the engine assigned is written back, and the document is linked to
the collection. -/
def save (number document : Nat) (control : Option ConcurrencyControl) : Action Unit := do
  let source := (← get).document document
  reportIn number .debug ("Saving document " ++ source.identifier) "in"
  let reply ← requestOf number fun address =>
    .save address source.identifier (.cell source.bag) control source.sequence
  match reply with
  | .saved result =>
      changeDocument document fun current =>
        { current with
          identifier := result.identifier
          revision := result.revision
          sequence := result.sequence
          collection := some number }
  | _ => return ()

/-- The stored document of an identifier, linked to the collection. -/
def load (number : Nat) (identifier : String) : Action (Option Nat) := do
  match ← requestOf number fun address => .getDocument address identifier with
  | .record record =>
      let bag :=
        match ← placeBag record.data with
        | .cell bag => some bag
        | _ => none
      let loaded ← newDocument false (some record.identifier) (some record.sequence)
        record.revision bag (some number)
      return some loaded
  | _ => return none

/-- A document deleted. -/
def delete (number document : Nat) (control : Option ConcurrencyControl) : Action Unit := do
  let source := (← get).document document
  reportIn number .debug ("Deleting document " ++ source.identifier) "in"
  let _ ← requestOf number fun address =>
    .deleteDocument address source.identifier control source.sequence

/-- The document of an identifier purged. -/
def purgeIdentifier (number : Nat) (identifier : String) : Action Unit := do
  reportIn number .debug ("Purging document " ++ identifier) "in"
  let _ ← requestOf number fun address => .purgeDocument address identifier

/-- A document purged. -/
def purge (number document : Nat) : Action Unit := do
  purgeIdentifier number ((← get).document document).identifier

/-- The content of a blob of a stored document. -/
def blobContentIn (number : Nat) (identifier key : String) : Action Object := do
  receive (← requestOf number fun address => .getBlobContent address identifier key)

/-- The content of a blob of a document, from the collection it is linked to. -/
def blobContent (document : Nat) (key : String) : Action Object := do
  let workspace ← get
  let source := workspace.document document
  match workspace.collectionOf source with
  | none => throw (.database (.notOpen source.identifier))
  | some number => blobContentIn number source.identifier key

/-- An index created from its descriptor. -/
def createIndex (number : Nat) (name : String) (index : Index) : Action Unit := do
  reportIn number .info ("Creating " ++ index.typeWord ++ " index " ++ name) "on"
  let definition ← consult index.definition
  let value ← place definition
  let _ ← requestOf number fun address => .createIndex address name value

/-- An index deleted. -/
def deleteIndex (number : Nat) (name : String) : Action Unit := do
  reportIn number .info ("Deleting index " ++ name) "on"
  let _ ← requestOf number fun address => .deleteIndex address name

/-- The names of the indexes. -/
def indexNames (number : Nat) : Action Object := do
  receive (← requestOf number .getIndexes)

/-- The number of documents. -/
def count (number : Nat) : Action Object := do
  receive (← requestOf number .getCount)

/-- An expiration set or, for none, cleared. -/
def setExpiration (number : Nat) (identifier : String) (moment : Option Calendar.Moment) :
    Action Unit := do
  let timestamp ← consult fun _ =>
    match moment with
    | none => .ok none
    | some moment =>
        match Calendar.Timestamp.write? moment with
        | some timestamp => .ok (some timestamp)
        | none => .error .outsideCalendar
  let _ ← requestOf number fun address => .setExpiration address identifier timestamp

/-- The expiration of a document. -/
def expiration (number : Nat) (identifier : String) : Action (Option Calendar.Moment) := do
  match ← requestOf number fun address => .getExpiration address identifier with
  | .value (.value value) => consult fun _ => value.asMoment
  | _ => return none

end DocumentStore.Action
