import DocumentStore.Table

/-!
Contract: the names that are used where none is given.

Owns: the defaults, and the variables of the environment that replace them.

Does not own: the environment.
-/

set_option autoImplicit false

namespace DocumentStore

/-- The names of the database, the scope and the collection to use. -/
structure Settings where
  database : String
  scope : String
  collection : String
  deriving DecidableEq

namespace Settings

/-- The settings under an environment: a variable that is set counts, even if it is empty. -/
def ofEnvironment (environment : Table String String) : Settings where
  database := (Table.value? environment "DOCLITE_DATABASE_NAME").getD "doclite"
  scope := (Table.value? environment "DOCLITE_SCOPE_NAME").getD "_default"
  collection := (Table.value? environment "DOCLITE_COLLECTION_NAME").getD "_default"

/-- A given name, unless it is missing or empty. -/
def orElse (given : Option String) (otherwise : String) : String :=
  match given with
  | none => otherwise
  | some "" => otherwise
  | some name => name

end Settings

end DocumentStore
