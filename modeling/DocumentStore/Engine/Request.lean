import DocumentStore.Heap.Draft
import DocumentStore.Log

/-!
Contract: what collections and queries ask of an engine, and what it answers.

Owns: collection addresses, the requests with their names, the replies, and the
interface of an engine.

Does not own: any particular engine.

An engine sees the store and changes its own state only. What it returns is a draft,
which the caller places, so an engine can neither change a caller's containers nor
hand out its own.
-/

set_option autoImplicit false

namespace DocumentStore

/-- The address of a collection inside an engine. -/
structure Address where
  database : String
  scope : String
  collection : String
  deriving DecidableEq

/-- Scope and name of a collection. -/
def Address.fullName (address : Address) : String :=
  address.scope ++ "." ++ address.collection

/-- What to do about a document that was changed since it was read. -/
inductive ConcurrencyControl where
  | lastWriteWins
  | failOnConflict
  deriving DecidableEq

/-- The number of a concurrency control. -/
def ConcurrencyControl.number : ConcurrencyControl → Int
  | lastWriteWins => 0
  | failOnConflict => 1

/-- A request. The bag of a saved document and the definition of an index come as `Data`. -/
inductive Request (Data : Type) where
  | save (collection : Address) (identifier : String) (data : Data)
      (control : Option ConcurrencyControl) (sequence : Int)
  | getDocument (collection : Address) (identifier : String)
  | deleteDocument (collection : Address) (identifier : String)
      (control : Option ConcurrencyControl) (sequence : Int)
  | purgeDocument (collection : Address) (identifier : String)
  | getBlobContent (collection : Address) (identifier key : String)
  | createIndex (collection : Address) (name : String) (definition : Data)
  | deleteIndex (collection : Address) (name : String)
  | getIndexes (collection : Address)
  | getCount (collection : Address)
  | setExpiration (collection : Address) (identifier : String) (expiration : Option String)
  | getExpiration (collection : Address) (identifier : String)
  | executeQuery (database query : String) (parameters : Value)
  | explainQuery (database query : String) (parameters : Value)

namespace Request

/-- The name of a request. -/
def name {Data : Type} : Request Data → String
  | save .. => "save"
  | getDocument .. => "get_document"
  | deleteDocument .. => "delete_document"
  | purgeDocument .. => "purge_document"
  | getBlobContent .. => "get_blob_content"
  | createIndex .. => "create_index"
  | deleteIndex .. => "delete_index"
  | getIndexes .. => "get_indexes"
  | getCount .. => "get_count"
  | setExpiration .. => "set_document_expiration"
  | getExpiration .. => "get_document_expiration"
  | executeQuery .. => "execute_query"
  | explainQuery .. => "explain_query"

/-- The same request with its data in another form. -/
def map {Data Other : Type} (transform : Data → Other) : Request Data → Request Other
  | save collection identifier data control sequence =>
      .save collection identifier (transform data) control sequence
  | getDocument collection identifier => .getDocument collection identifier
  | deleteDocument collection identifier control sequence =>
      .deleteDocument collection identifier control sequence
  | purgeDocument collection identifier => .purgeDocument collection identifier
  | getBlobContent collection identifier key => .getBlobContent collection identifier key
  | createIndex collection name definition =>
      .createIndex collection name (transform definition)
  | deleteIndex collection name => .deleteIndex collection name
  | getIndexes collection => .getIndexes collection
  | getCount collection => .getCount collection
  | setExpiration collection identifier expiration =>
      .setExpiration collection identifier expiration
  | getExpiration collection identifier => .getExpiration collection identifier
  | executeQuery database query parameters => .executeQuery database query parameters
  | explainQuery database query parameters => .explainQuery database query parameters

end Request

/-- What an engine assigns to a saved document. -/
structure SaveResult where
  identifier : String
  revision : Option String
  sequence : Int
  deriving DecidableEq

/-- A stored document as an engine hands it out. -/
structure Record where
  identifier : String
  sequence : Int
  revision : Option String
  data : Draft

/-- The answer to a request. -/
inductive Reply where
  | value (draft : Draft)
  | saved (result : SaveResult)
  | record (record : Record)

namespace Reply

/-- The answer that says nothing. -/
def nothing : Reply :=
  .value (.value .null)

end Reply

/-- How a request went: its answer or its failure, and what was reported meanwhile. -/
structure Outcome where
  result : Except Failure Reply
  log : List LogRecord

namespace Outcome

/-- A request that was answered, with nothing to report. -/
def answer (reply : Reply) : Outcome :=
  ⟨.ok reply, []⟩

/-- A request that failed. -/
def failed (failure : Failure) : Outcome :=
  ⟨.error failure, []⟩

end Outcome

/-- An engine answers requests about the values of a store. -/
class DocumentEngine (Engine : Type) where
  perform : Store → Request Value → Engine → Outcome × Engine

end DocumentStore
