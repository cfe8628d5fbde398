import DocumentStore.Workspace.Basic

/-!
Contract: what a query does.

Owns: the requests a query puts to its engine, and what it reports.

Does not own: the meaning of the query text.
-/

set_option autoImplicit false

namespace DocumentStore.Action

/-- The logger of queries. -/
def queryLogger : String :=
  "doclite.core.query"

/-- A new query. The settings give a missing or empty database name; parameters that are not
given are empty ones of its own. -/
def newQuery (engine : Nat) (text : String) (database : Option String)
    (parameters : Option Nat) : Action Nat := do
  let parameters ←
    match parameters with
    | some given => pure given
    | none => newParameters none
  modifyGet fun workspace =>
    let database := Settings.orElse database workspace.settings.database
    (workspace.queries.size,
      { workspace with queries := workspace.queries.push ⟨engine, database, text, parameters⟩ })

/-- Other parameters for a query. -/
def setParameters (number parameters : Nat) : Action Unit :=
  modify fun workspace =>
    { workspace with
      queries := workspace.queries.setIfInBounds number
        { workspace.query number with parameters } }

/-- The object that an engine receives for some parameters. -/
def parameterValues (parameters : Nat) : Action Value := do
  let workspace ← get
  place (← consult fun store => (workspace.parametersOf parameters).draft workspace.writer store)

/-- A query executed with its parameters as they are now. -/
def execute [Machine] (number : Nat) : Action Object := do
  let query := (← get).query number
  report ⟨.debug, queryLogger, "Executing query on " ++ query.database ++ ": " ++ query.text⟩
  let values ← parameterValues query.parameters
  receive (← request query.engine (.executeQuery query.database query.text values))

/-- The plan of a query. -/
def explain [Machine] (number : Nat) : Action Object := do
  let query := (← get).query number
  let values ← parameterValues query.parameters
  receive (← request query.engine (.explainQuery query.database query.text values))

end DocumentStore.Action
