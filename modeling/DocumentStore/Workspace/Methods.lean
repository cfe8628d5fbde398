import DocumentStore.Workspace.Collections
import DocumentStore.Workspace.Queries

/-!
Contract: the methods of objects, by name.

Owns: for each kind of object the names it answers to, the arguments that each name
takes, and the object that each gives back.

Does not own: what a method does; every entry refers to the operation of its own
module.

A name that an object does not know, or arguments of the wrong shape, give none.
-/

set_option autoImplicit false

namespace DocumentStore

/-- The reading of one property by the name of a getter. -/
def Document.read? (store : Store) (property : Value) : String → Option (Except Failure Value)
  | "get_value" => some (.ok property)
  | "get_string" => some (.ok ((property.asText.map Value.text).getD .null))
  | "get_boolean" => some (.ok (.boolean property.asTruth))
  | "get_int" => some (.ok (.integer property.asInteger))
  | "get_long" => some (.ok property.asNumber.value)
  | "get_float" => some (property.asDouble.map .double)
  | "get_double" => some (property.asDouble.map .double)
  | "get_date" => some (property.asMoment.map fun moment => (moment.map Value.moment).getD .null)
  | "get_array" => some (.ok (store.asArray property))
  | "get_dictionary" => some (.ok (store.asObject property))
  | _ => none

/-- The methods that set a property to a value as it is given. -/
def Document.plainSetters : List String :=
  ["set_string", "set_boolean", "set_int", "set_long", "set_float", "set_double", "set_number",
    "set_array", "set_dictionary"]

/-- The declared type that a method binds a parameter with. -/
def ParameterType.ofMethod? : String → Option ParameterType
  | "set_value" => some .value
  | "set_string" => some .string
  | "set_boolean" => some .boolean
  | "set_float" => some .float
  | "set_double" => some .double
  | "set_long" => some .long
  | "set_int" => some .int
  | _ => none

/-- A moment given as an argument; null is none. -/
def Object.moment? : Object → Option (Option Calendar.Moment)
  | .value (.moment instant) => some (some instant)
  | .value .null => some none
  | _ => none

/-- A text given as an argument; null is none. -/
def Object.text? : Object → Option (Option String)
  | .value (.text text) => some (some text)
  | .value .null => some none
  | _ => none

/-- A concurrency control given as an argument: none, 0 for the last write and 1 for failure. -/
def Object.control? : List Object → Option (Option ConcurrencyControl)
  | [] => some none
  | .value .null :: _ => some none
  | .value (.integer 0) :: _ => some (some .lastWriteWins)
  | .value (.integer 1) :: _ => some (some .failOnConflict)
  | _ => none

/-- A sequence given as an argument; 0 where there is none. -/
def Object.sequence? : List Object → Option Int
  | [] => some 0
  | .value (.integer sequence) :: _ => some sequence
  | _ => none

/-- A value given as an argument. -/
def Object.value? : Object → Option Value
  | .value plain => some plain
  | _ => none

/-- An operand given as an argument. -/
def Object.operand? : Object → Option Expression
  | .expression _ operand => some operand
  | .value plain => some (.foreign plain)
  | _ => none

/-- An object as the argument of a call that is recorded. -/
def Object.argument? (store : Store) : Object → Option Argument
  | .address _ place => some (.address place)
  | .value plain => some (.tree (store.unfold plain))
  | _ => none

namespace Action

/-- No such method. -/
def unknown : Action (Option Object) :=
  return none

/-- A value as the result of a method. -/
def giveValue (value : Value) : Action (Option Object) :=
  return some (.value value)

/-- An optional text as the result of a method. -/
def giveText (text : Option String) : Action (Option Object) :=
  giveValue ((text.map Value.text).getD .null)

/-- An action without a result. -/
def giveNothing (action : Action Unit) : Action (Option Object) := do
  action
  giveValue .null

/-- A setter gives back the object it was called on. -/
def giveBack (object : Object) (action : Action Unit) : Action (Option Object) := do
  action
  return some object

/-- A new object, with an identity of its own, as the result of a method. -/
def giveNew (make : Identity → Object) : Action (Option Object) := do
  return some (make (← newIdentity))

/-- A draft, allocated, as the result of a method. -/
def giveDraft (draft : Draft) : Action (Option Object) := do
  giveValue (← place draft)

variable [Machine]

/-- A method of one property of a document. -/
def callProperty (number : Nat) (method key : String) (arguments : List Object) :
    Action (Option Object) := do
  let workspace ← get
  let document := workspace.document number
  let itself : Object := .document number
  match method, arguments with
  | "contains", [] => giveValue (.boolean (document.contains workspace.store key))
  | "get_blob", [] => giveValue (← blobOf number key)
  | "get_blob_content", [] => return some (← blobContent number key)
  | "remove", [] =>
      giveBack itself (throughDocument number fun store document => document.remove store key)
  | "set_date", [given] =>
      match given.moment? with
      | some moment => giveBack itself (setMoment number key moment)
      | none => unknown
  | _, [] =>
      match Document.read? workspace.store (document.property workspace.store key) method with
      | some reading => giveValue (← consult fun _ => reading)
      | none => unknown
  | _, [.value value] =>
      if method = "set_value" ∨ method = "set_blob" then
        giveBack itself (throughDocument number fun store document =>
          document.setValue store key value)
      else if method ∈ Document.plainSetters then
        giveBack itself (throughDocument number fun store document => document.set store key value)
      else unknown
  | _, _ => unknown

/-- A method of a document. -/
def callDocument (number : Nat) (method : String) (arguments : List Object) :
    Action (Option Object) := do
  let workspace ← get
  let document := workspace.document number
  match method, arguments with
  | "get_id", [] => giveText (some document.identifier)
  | "get_sequence", [] => giveValue (.integer document.sequence)
  | "get_revision_id", [] => giveText document.revision
  | "get_collection", [] =>
      match workspace.collectionOf document with
      | some collection => return some (.collection collection)
      | none => giveValue .null
  | "get_data", [] => giveValue (.cell document.bag)
  | "to_dictionary", [] => giveValue (.cell document.bag)
  | "to_json_string", [] => giveText (some (← consult document.writeJson))
  | "count", [] => giveValue (.integer (document.count workspace.store))
  | "get_keys", [] => giveDraft (.array ((document.keys workspace.store).map Draft.text))
  | "set_data", [.value (.cell bag)] => giveBack (.document number) (setBag number bag)
  | "set_id", [.value (.text identifier)] =>
      giveNothing (changeDocument number fun current => { current with identifier })
  | "set_sequence", [.value (.integer sequence)] =>
      giveNothing (changeDocument number fun current => { current with sequence })
  | "set_revision_id", [given] =>
      match given.text? with
      | some revision =>
          giveNothing (changeDocument number fun current => { current with revision })
      | none => unknown
  | "set_collection", [.collection collection] =>
      giveNothing (changeDocument number fun current =>
        { current with collection := some collection })
  | "set_collection", [.value .null] =>
      giveNothing (changeDocument number fun current => { current with collection := none })
  | "from_document", [.document source] => return some (.document (← editDocument source))
  | "from_json", [given, .value (.text text)] =>
      match given.text? with
      | some identifier => return some (.document (← readDocument identifier text))
      | none => unknown
  | _, .value (.text key) :: rest => callProperty number method key rest
  | _, _ => unknown

/-- A document that was loaded, or null. -/
def giveLoaded (loaded : Option Nat) : Action (Option Object) :=
  match loaded with
  | some document => return some (.document document)
  | none => giveValue .null

/-- A method of a collection. -/
def callCollection (number : Nat) (method : String) (arguments : List Object) :
    Action (Option Object) := do
  match method, arguments with
  | "save", .document document :: rest =>
      match Object.control? rest with
      | some control => giveNothing (save number document control)
      | none => unknown
  | "document", [.value (.text identifier)] => giveLoaded (← load number identifier)
  | "get_document", [.value (.text identifier)] => giveLoaded (← load number identifier)
  | "delete_document", .document document :: rest =>
      match Object.control? rest with
      | some control => giveNothing (delete number document control)
      | none => unknown
  | "purge", [.document document] => giveNothing (purge number document)
  | "purge_by_id", [.value (.text identifier)] => giveNothing (purgeIdentifier number identifier)
  | "get_blob_content", [.value (.text identifier), .value (.text key)] =>
      return some (← blobContentIn number identifier key)
  | "create_index", [.value (.text name), .index _ index] =>
      giveNothing (createIndex number name index)
  | "delete_index", [.value (.text name)] => giveNothing (deleteIndex number name)
  | "indexes", [] => return some (← indexNames number)
  | "count", [] => return some (← count number)
  | "set_document_expiration", [.value (.text identifier), given] =>
      match given.moment? with
      | some moment => giveNothing (setExpiration number identifier moment)
      | none => unknown
  | "get_document_expiration", [.value (.text identifier)] =>
      giveValue (((← expiration number identifier).map Value.moment).getD .null)
  | "get_engine", [] => return some (.engine ((← get).collection number).engine)
  | "full_name", [] => giveText (some ((← get).collection number).address.fullName)
  | _, _ => unknown

/-- A method of parameters. -/
def callParameters (number : Nat) (method : String) (arguments : List Object) :
    Action (Option Object) := do
  let parameters := (← get).parametersOf number
  let itself : Object := .parameters number
  match method, arguments with
  | "to_json", [] => giveValue (← parameterValues number)
  | "names", [] => giveDraft (.array (parameters.names.map Draft.text))
  | "size", [] => giveValue (.integer parameters.length)
  | "get", [.value (.text name)] =>
      match parameters.get? name with
      | some parameter => return some (.parameter parameter)
      | none => giveValue .null
  | "remove", [.value (.text name)] => giveBack itself (changeParameters number (·.unbind name))
  | "set_date", [.value (.text name), given] =>
      match given.moment? with
      | some moment => do
          let identity ← newIdentity
          let parameter ← consult fun _ => Parameter.ofMoment identity moment
          giveBack itself (changeParameters number (·.bind name parameter))
      | none => unknown
  | _, [.value (.text name), .value value] =>
      match ParameterType.ofMethod? method with
      | some type => do
          let identity ← newIdentity
          giveBack itself (changeParameters number (·.bind name ⟨identity, value, type⟩))
      | none => unknown
  | _, _ => unknown

/-- A method of a query. -/
def callQuery (number : Nat) (method : String) (arguments : List Object) :
    Action (Option Object) := do
  let query := (← get).query number
  match method, arguments with
  | "get_database_name", [] => giveText (some query.database)
  | "text", [] => giveText (some query.text)
  | "get_parameters", [] => return some (.parameters query.parameters)
  | "set_parameters", [.parameters parameters] => giveNothing (setParameters number parameters)
  | "execute", [] => return some (← execute number)
  | "explain", [] => return some (← explain number)
  | _, _ => unknown

/-- The request that a method of an engine makes of its arguments. -/
def requestFor? (method : String) (arguments : List Object) : Option (Request Value) :=
  match method, arguments with
  | "save", .address _ collection :: .value (.text identifier) :: .value data :: rest => do
      some (.save collection identifier data (← Object.control? rest)
        (← Object.sequence? (rest.drop 1)))
  | "get_document", [.address _ collection, .value (.text identifier)] =>
      some (.getDocument collection identifier)
  | "delete_document", .address _ collection :: .value (.text identifier) :: rest => do
      some (.deleteDocument collection identifier (← Object.control? rest)
        (← Object.sequence? (rest.drop 1)))
  | "purge_document", [.address _ collection, .value (.text identifier)] =>
      some (.purgeDocument collection identifier)
  | "get_blob_content",
      [.address _ collection, .value (.text identifier), .value (.text key)] =>
      some (.getBlobContent collection identifier key)
  | "create_index", [.address _ collection, .value (.text name), .value definition] =>
      some (.createIndex collection name definition)
  | "delete_index", [.address _ collection, .value (.text name)] =>
      some (.deleteIndex collection name)
  | "get_indexes", [.address _ collection] => some (.getIndexes collection)
  | "get_count", [.address _ collection] => some (.getCount collection)
  | "set_document_expiration", [.address _ collection, .value (.text identifier), given] => do
      some (.setExpiration collection identifier (← given.text?))
  | "get_document_expiration", [.address _ collection, .value (.text identifier)] =>
      some (.getExpiration collection identifier)
  | "execute_query", [.value (.text database), .value (.text query), .value parameters] =>
      some (.executeQuery database query parameters)
  | "explain_query", [.value (.text database), .value (.text query), .value parameters] =>
      some (.explainQuery database query parameters)
  | _, _ => none

/-- A method of an engine. A scripted engine takes any call as it is. -/
def callEngine (number : Nat) (method : String) (arguments : List Object) :
    Action (Option Object) := do
  let workspace ← get
  match workspace.engines[number]? with
  | some (.scripted _) =>
      match arguments.mapM (Object.argument? workspace.store) with
      | some arguments =>
          return some (← receive (← converse number fun _ => Engine.take ⟨method, arguments⟩))
      | none => unknown
  | _ =>
      match requestFor? method arguments with
      | some asked => return some (← receive (← request number asked))
      | none => unknown

/-- A method of a blob. -/
def callBlob (blob : Blob) (method : String) (arguments : List Object) :
    Action (Option Object) := do
  match method, arguments with
  | "get_bytes", [] => giveValue ((blob.content.map Value.bytes).getD .null)
  | "get_content_type", [] => giveValue blob.contentType
  | "get_digest", [] => giveValue blob.digest
  | "get_length", [] => giveValue blob.length
  | "to_dictionary", [] => giveDraft blob.dictionary
  | "from_json", [.value (.text text)] => giveValue (← readBlob text)
  | "from_dictionary", [.value dictionary] =>
      match (← get).store.object? dictionary with
      | some fields => giveValue (← blobOfDictionary fields)
      | none => unknown
  | "from_metadata", [.value contentType, .value length, .value digest] =>
      giveDraft (Blob.ofMetadata contentType length digest).draft
  | _, _ => unknown

/-- A new expression, if there is one, as the result of a method. -/
def giveExpression (made : Option Expression) : Action (Option Object) :=
  match made with
  | some expression => giveNew (.expression · expression)
  | none => unknown

/-- A method that makes a new expression, by a factory or from the receiver. -/
def makeExpression (receiver : Expression) (method : String) (arguments : List Object) :
    Action (Option Object) :=
  match method, receiver, arguments with
  | "from_", _, [given] => giveExpression (given.text?.map receiver.taken)
  | "all_from", .property _ _ _, [given] => giveExpression (given.text?.map .allFrom)
  | "negated", _, [given] => giveExpression (given.operand?.map .negated)
  | "not_", _, [given] => giveExpression (given.operand?.map .negated)
  | _, _, _ =>
      giveExpression
        (((arguments.mapM Object.value?).bind (Expression.ofFactory? method)).or
          ((arguments.mapM Object.operand?).bind (receiver.build? method)))

/-- A method of an expression. -/
def callExpression (identity : Identity) (expression : Expression) (method : String)
    (arguments : List Object) : Action (Option Object) := do
  match method, expression, arguments with
  | "as_json", _, [] => giveDraft (← consult expression.render)
  | "get_column_name", _, [] =>
      match expression.columnName? with
      | some column => giveText (some column)
      | none => unknown
  | "get_name", .variable name, [] => giveText (some name)
  | "get_expressions", .aggregate items, [] => return some (.expressions identity items)
  | _, _, _ => makeExpression expression method arguments

/-- A method of a sort clause. -/
def callSortOrder (order : SortOrder) (method : String) (arguments : List Object) :
    Action (Option Object) := do
  match method, arguments with
  | "as_json", [] => giveDraft (← consult order.render)
  | "ascending", [] => giveNew (.sortOrder · { order with isAscending := true })
  | "descending", [] => giveNew (.sortOrder · { order with isAscending := false })
  | _, _ => unknown

/-- A method of the descriptor of an index. -/
def callIndex (index : Index) (method : String) (arguments : List Object) :
    Action (Option Object) := do
  match method, arguments with
  | "language", [] => giveText index.language
  | "ignore_accents", [] => giveValue (.boolean index.ignoresAccents)
  | "items", [] => giveDraft (.array (← consult index.items))
  | "to_json", [] => giveDraft (← consult index.definition)
  | "set_language", [given] =>
      match given.text? with
      | some language => giveNew (.index · (index.withLanguage language))
      | none => unknown
  | "set_ignore_accents", [.value (.boolean ignoresAccents)] =>
      giveNew (.index · (index.withAccents ignoresAccents))
  | _, _ => unknown

/-- A method of an object. -/
def call (object : Object) (method : String) (arguments : List Object) :
    Action (Option Object) := do
  match object with
  | .document number => callDocument number method arguments
  | .collection number => callCollection number method arguments
  | .parameters number => callParameters number method arguments
  | .query number => callQuery number method arguments
  | .engine number => callEngine number method arguments
  | .expression identity expression => callExpression identity expression method arguments
  | .sortOrder _ order => callSortOrder order method arguments
  | .index _ index => callIndex index method arguments
  | .value value =>
      match (← get).store.blob? value with
      | some blob => callBlob blob method arguments
      | none => unknown
  | _ => unknown

end Action

end DocumentStore
