import DocumentStore.Engine.Request

/-!
Contract: the engine whose answers are written down beforehand.

Owns: one answer for each name of a request, and the record of all calls.

Does not own: any state that an answer depends on.

A call is recorded as it was when it was made, so what becomes of its arguments later
does not show in the record. An answer is a draft, so every call gets containers of its
own.
-/

set_option autoImplicit false

namespace DocumentStore

/-- An argument as it was when a call was made. -/
inductive Argument where
  | address (address : Address)
  | tree (tree : Tree)

namespace Argument

/-- A text as an argument. -/
def text (text : String) : Argument :=
  .tree (.text text)

/-- A number as an argument. -/
def integer (value : Int) : Argument :=
  .tree (.integer value)

/-- Null as an argument. -/
def null : Argument :=
  .tree .null

/-- A concurrency control as an argument: its number, or null where there is none. -/
def control : Option ConcurrencyControl → Argument
  | some control => integer control.number
  | none => null

end Argument

/-- A call that was made: the name and the arguments. -/
structure Call where
  name : String
  arguments : List Argument

/-- The arguments of a request, in order. -/
def Request.arguments (store : Store) : Request Value → List Argument
  | save collection identifier data control sequence =>
      [.address collection, .text identifier, .tree (store.unfold data), .control control,
        .integer sequence]
  | getDocument collection identifier => [.address collection, .text identifier]
  | deleteDocument collection identifier control sequence =>
      [.address collection, .text identifier, .control control, .integer sequence]
  | purgeDocument collection identifier => [.address collection, .text identifier]
  | getBlobContent collection identifier key =>
      [.address collection, .text identifier, .text key]
  | createIndex collection name definition =>
      [.address collection, .text name, .tree (store.unfold definition)]
  | deleteIndex collection name => [.address collection, .text name]
  | getIndexes collection => [.address collection]
  | getCount collection => [.address collection]
  | setExpiration collection identifier expiration =>
      [.address collection, .text identifier, (expiration.map Argument.text).getD .null]
  | getExpiration collection identifier => [.address collection, .text identifier]
  | executeQuery database query parameters =>
      [.text database, .text query, .tree (store.unfold parameters)]
  | explainQuery database query parameters =>
      [.text database, .text query, .tree (store.unfold parameters)]

/-- What a scripted engine does about a call. -/
inductive ScriptedAnswer where
  | reply (reply : Reply)
  | refuse (fault : DatabaseFault)

/-- A scripted engine. -/
structure Scripted where
  answers : Table String ScriptedAnswer
  /-- The calls so far, in order. -/
  calls : List Call

namespace Scripted

/-- An engine with some answers that was not asked anything yet. -/
def ofAnswers (answers : Table String ScriptedAnswer) : Scripted :=
  ⟨answers, []⟩

/-- The answer to a call: the one written down under its name, or nothing. -/
def respond (engine : Scripted) (name : String) : Except Failure Reply :=
  match Table.value? engine.answers name with
  | none => .ok .nothing
  | some (.reply reply) => .ok reply
  | some (.refuse fault) => .error (.database fault)

/-- A call recorded and answered. -/
def take (call : Call) (engine : Scripted) : Outcome × Scripted :=
  (⟨engine.respond call.name, []⟩, { engine with calls := engine.calls ++ [call] })

instance : DocumentEngine Scripted where
  perform store request := take ⟨request.name, request.arguments store⟩

end Scripted

end DocumentStore
