import DocumentStore.Proofs.Workspace.Queries

/-!
Contract: parameters are what was done to them, whatever else happens.

Owns: programs that use parameters and queries, the values they know, the account of what they did
to each parameters object and of which queries they executed, and what the steps preserve that
execute nothing.

Does not own: the methods of a query.

An engine receives the parameters in new containers that no program gets to. `Sound` is what every
step of a run preserves: the known containers refer to each other only, and the logs refer to copies
outside of them.
-/

set_option autoImplicit false

namespace DocumentStore

/-! ### Executions -/

/-- A query at the time of its execution: its engine, its database and its text, and the object that
its parameters were for the engine. -/
structure Execution where
  engine : Nat
  database : String
  text : String
  shown : Draft

namespace Execution

/-- An entry of a log is an execution: it has the database, the text and, in containers of its own,
the parameters as they were. -/
structure LoggedAs (execution : Execution) (store : Store) (entry : ExecutedQuery) : Prop where
  database : entry.database = execution.database
  text : entry.query = execution.text
  parameters : (store.unfold entry.parameters).copy? = some execution.shown

/-- An entry of a log that is an execution, and stays one whatever happens to some cells. -/
structure KeptAs (execution : Execution) (store : Store) (mine : Ref → Prop)
    (entry : ExecutedQuery) : Prop where
  database : entry.database = execution.database
  text : entry.query = execution.text
  parameters : ∃ bound, bound ≤ store.size
    ∧ store.Copied mine bound entry.parameters execution.shown

section Entries

variable {execution : Execution} {store after : Store} {mine grown : Ref → Prop}
  {entry : ExecutedQuery} (kept : execution.KeptAs store mine entry)

include kept

theorem KeptAs.logged : execution.LoggedAs store entry where
  database := kept.database
  text := kept.text
  parameters := by
    obtain ⟨bound, present, copied⟩ := kept.parameters
    exact copied.copy?_unfold present

theorem KeptAs.of_changesOnly (changes : store.ChangesOnly after mine grown)
    (blobs : store.KeepsBlobs after) : execution.KeptAs after grown entry where
  database := kept.database
  text := kept.text
  parameters := by
    obtain ⟨bound, present, copied⟩ := kept.parameters
    exact ⟨bound, Nat.le_trans present changes.size_le, copied.of_changesOnly changes blobs present⟩

end Entries

end Execution

/-! ### Sessions -/

/-- A workspace, and the values that the program using it holds on to. -/
structure Session where
  workspace : Workspace
  kept : List Value

namespace Session

/-- A session in which nothing was done yet, with a writer of parameters. -/
def start (environment : Table String String) (write : Parameter.Writer) : Session :=
  ⟨{ Workspace.start environment with writer := write }, []⟩

section Steps

variable (session : Session)

/-- What a program can refer to: anything that is no container, and the containers it reaches. -/
def Knows (value : Value) : Prop :=
  ∀ ref, value = .cell ref → session.workspace.store.Reaches session.kept (.cell ref)

theorem knows_of_mem {session : Session} {value : Value} (member : value ∈ session.kept) :
    session.Knows value := by
  rintro ref rfl
  exact .kept member

theorem knows_of_plain {session : Session} {value : Value} (plain : ∀ ref, value ≠ .cell ref) :
    session.Knows value :=
  fun ref same => absurd same (plain ref)

/-- A value held on its own, so that it stays known when its container lets go of it. -/
def keep (value : Value) : Session :=
  { session with kept := value :: session.kept }

/-- New containers. -/
def build (draft : Draft) : Session :=
  let (value, store) := session.workspace.store.place draft
  ⟨{ session.workspace with store }, value :: session.kept⟩

/-- A container changed in place. -/
def change (mutation : Mutation) : Session :=
  { session with
    workspace := { session.workspace with store := mutation.apply session.workspace.store } }

/-- An object made. -/
def make (maker : Action Nat) : Session :=
  { session with workspace := (maker.run.run session.workspace).2 }

/-- A method called. The program holds on to what it gave and to what it was given. -/
def call [Machine] (object : Object) (method : String) (arguments : List Object) : Session :=
  let (result, workspace) := (Action.call object method arguments).run.run session.workspace
  ⟨workspace, Action.handedOut result ++ (arguments.flatMap Object.values ++ session.kept)⟩

end Steps

/-- What a program did: the operations on each of its parameters objects, the queries it made, with
the parameters that each of them has, and the executions. -/
structure Account where
  operations : List (List Parameters.Operation)
  queries : List Query
  executions : List Execution

namespace Account

variable (account : Account)

/-- Another parameters object, with operations that count for it from the start. -/
def add (done : List Parameters.Operation) : Account :=
  { account with operations := account.operations ++ [done] }

/-- A parameters object after an operation, if there was one. -/
def operate (number : Nat) (done : List Parameters.Operation)
    (operation : Option Parameters.Operation) : Account :=
  { account with operations := account.operations.set number (done ++ operation.toList) }

/-- Another query. -/
def ask (query : Query) : Account :=
  { account with queries := account.queries ++ [query] }

/-- What the parameters of a query are for an engine. -/
def shown (workspace : Workspace) (query : Query) : Except Failure Draft :=
  Parameters.shown workspace.writer workspace.store (account.operations.getD query.parameters [])

/-- A query after a call, which executes it, gives it other parameters, or only reads it. It is not
executed if its parameters cannot be written. -/
def callQuery (number : Nat) (query : Query) (workspace : Workspace) :
    Option Query.Effect → Account
  | some .execution =>
      match account.shown workspace query with
      | .ok shown =>
          { account with
            executions := account.executions ++ [⟨query.engine, query.database, query.text, shown⟩] }
      | .error _ => account
  | some (.parameters parameters) =>
      { account with queries := account.queries.set number { query with parameters } }
  | none => account

end Account

/-- The database of a query: the one that is named, or that of the settings if none is. -/
def databaseFor (settings : Settings) : Option String → String
  | none => settings.database
  | some "" => settings.database
  | some name => name

theorem orElse_eq_databaseFor (settings : Settings) (database : Option String) :
    Settings.orElse database settings.database = databaseFor settings database := rfl

/-- A step of a program that uses parameters and queries of engines in memory, and builds and
changes containers. A copy of parameters starts with what was done to its source. -/
inductive Step [Machine] (account : Account) (session : Session) : Account → Session → Prop where
  | keep {value : Value} (known : session.Knows value) :
      Step account session account (session.keep value)
  | build {draft : Draft} (known : ∀ value ∈ draft.leaves, session.Knows value) :
      Step account session account (session.build draft)
  | change (mutation : Mutation) (known : session.Knows (.cell mutation.target))
      (container : ∀ held, session.workspace.store.read? mutation.target ≠ some (.blob held))
      (brought : ∀ value ∈ mutation.brings, session.Knows value)
      (distinct : ∀ ref fields, mutation = .overwrite ref (.object fields) →
        Table.Distinct fields) :
      Step account session account (session.change mutation)
  | newEngine : Step account session account (session.make (Action.newEngine (.memory .empty)))
  | newParameters : Step account session (account.add []) (session.make (Action.newParameters none))
  | copyParameters {source : Nat} {done : List Parameters.Operation}
      (found : account.operations[source]? = some done) :
      Step account session (account.add done) (session.make (Action.newParameters (some source)))
  | callParameters {number : Nat} {done : List Parameters.Operation}
      (found : account.operations[number]? = some done) (method : String) (arguments : List Object)
      (known : ∀ value ∈ arguments.flatMap Object.values, session.Knows value) :
      Step account session
        (account.operate number done
          (Parameters.operation? session.workspace.nextIdentity method arguments))
        (session.call (.parameters number) method arguments)
  | newQuery {engine parameters : Nat} (engineThere : engine < session.workspace.engines.size)
      (parametersThere : parameters < account.operations.length) (text : String)
      (database : Option String) :
      Step account session
        (account.ask ⟨engine, databaseFor session.workspace.settings database, text, parameters⟩)
        (session.make (Action.newQuery engine text database (some parameters)))
  | newQueryAlone {engine : Nat} (engineThere : engine < session.workspace.engines.size)
      (text : String) (database : Option String) :
      Step account session
        ((account.add []).ask ⟨engine, databaseFor session.workspace.settings database, text,
          account.operations.length⟩)
        (session.make (Action.newQuery engine text database none))
  | callQuery {number : Nat} {query : Query} (found : account.queries[number]? = some query)
      (method : String) (arguments : List Object)
      (known : ∀ value ∈ arguments.flatMap Object.values, session.Knows value)
      (parametersThere : ∀ parameters, .parameters parameters ∈ arguments →
        parameters < account.operations.length) :
      Step account session
        (account.callQuery number query session.workspace (Query.effect? method arguments))
        (session.call (.query number) method arguments)

/-- A run from the start of a program, with the account of it. -/
inductive Runs [Machine] (environment : Table String String) (write : Parameter.Writer) :
    Account → Session → Prop where
  | start : Runs environment write ⟨[], [], []⟩ (start environment write)
  | step {account extended : Account} {session after : Session}
      (before : Runs environment write account session)
      (step : Step account session extended after) : Runs environment write extended after

/-! ### Soundness -/

/-- Parameters bound by some operations hold nothing but some cells. -/
def Account.Binds (account : Account) (mine : Ref → Prop) : Prop :=
  ∀ done ∈ account.operations, ∀ parameter, some parameter ∈ done.map Prod.snd →
    parameter.value.Within mine

/-- What a program knows are cells that refer to each other only; its parameters are what was done
to them, and so are its queries; and the logs of its engines have its executions, in cells that it
does not know. -/
structure Sound (write : Parameter.Writer) (account : Account) (session : Session)
    (mine : Ref → Prop) : Prop where
  writer : session.workspace.writer = write
  closed : session.workspace.store.Closed mine
  wellKeyed : session.workspace.store.WellKeyed
  kept : ∀ value ∈ session.kept, value.Within mine
  binds : account.Binds mine
  parameters : session.workspace.parameters.toList = account.operations.map Table.ofEntries
  queries : session.workspace.queries.toList = account.queries
  refers : ∀ query ∈ account.queries, query.engine < session.workspace.engines.size
    ∧ query.parameters < account.operations.length
  executed : ∀ execution ∈ account.executions, execution.engine < session.workspace.engines.size
  logs : ∀ (engine : Nat) (state : Engine), session.workspace.engines[engine]? = some state →
    ∃ memory : Memory, state = .memory memory
      ∧ List.Forall₂ (Execution.KeptAs · session.workspace.store mine)
        (account.executions.filter fun execution => execution.engine = engine) memory.queries

section Soundness

variable {write : Parameter.Writer} {session after : Session} {account extended : Account}
  {mine grown : Ref → Prop}

theorem Account.Binds.mono (binds : account.Binds mine) (keeps : ∀ ref, mine ref → grown ref) :
    account.Binds grown :=
  fun done member parameter bound => (binds done member parameter bound).mono keeps

theorem Account.Binds.add (binds : account.Binds mine) {done : List Parameters.Operation}
    (bound : ∀ parameter, some parameter ∈ done.map Prod.snd → parameter.value.Within mine) :
    (account.add done).Binds mine := by
  intro other member
  rcases List.mem_append.1 member with old | new
  · exact binds other old
  · rw [List.mem_singleton.1 new]
    exact bound

theorem Account.operate_none {number : Nat} {done : List Parameters.Operation}
    (found : account.operations[number]? = some done) :
    account.operate number done none = account := by
  obtain ⟨there, rfl⟩ := List.getElem?_eq_some_iff.1 found
  simp [operate]

theorem Account.Binds.operate (binds : account.Binds mine) {number : Nat}
    {done : List Parameters.Operation} (found : account.operations[number]? = some done)
    {operation : Parameters.Operation}
    (bound : ∀ parameter, operation.2 = some parameter → parameter.value.Within mine) :
    (account.operate number done (some operation)).Binds mine := by
  intro other member parameter bindsParameter
  rcases List.mem_or_eq_of_mem_set member with old | rfl
  · exact binds other old parameter bindsParameter
  · rw [List.map_append, List.mem_append] at bindsParameter
    rcases bindsParameter with old | new
    · exact binds done (List.mem_of_getElem? found) parameter old
    · exact bound parameter (List.mem_singleton.1 new).symm

theorem sound_start (environment : Table String String) :
    Sound write ⟨[], [], []⟩ (start environment write) (fun _ => False) where
  writer := rfl
  closed := ⟨fun _ impossible => impossible.elim, fun _ _ impossible => impossible.elim⟩
  wellKeyed := .empty
  kept := fun _ member => nomatch member
  binds := fun _ member => nomatch member
  parameters := rfl
  queries := rfl
  refers := fun _ member => nomatch member
  executed := fun _ member => nomatch member
  logs := fun _ _ found => by simp [start, Workspace.start] at found

section Sound

variable (sound : Sound write account session mine)

include sound

theorem Sound.within {value : Value} (known : session.Knows value) : value.Within mine := by
  intro ref same
  exact sound.closed.reaches sound.kept (known ref same) ref rfl

theorem Sound.size_parameters :
    session.workspace.parameters.size = account.operations.length := by
  rw [← Array.length_toList, sound.parameters, List.length_map]

/-- The parameters of a session are what was done to them. -/
theorem Sound.parametersOf (number : Nat) :
    session.workspace.parametersOf number =
      Table.ofEntries (account.operations.getD number []) := by
  rw [Workspace.parametersOf, Array.getD_eq_getD_getElem?, ← Array.getElem?_toList,
    sound.parameters, List.getElem?_map, List.getD_eq_getElem?_getD]
  cases account.operations[number]? <;> rfl

theorem Sound.parametersOf_of_found {number : Nat} {done : List Parameters.Operation}
    (found : account.operations[number]? = some done) :
    session.workspace.parametersOf number = Table.ofEntries done := by
  rw [sound.parametersOf, List.getD_eq_getElem?_getD, found]
  rfl

theorem Sound.distinct (number : Nat) :
    Table.Distinct (session.workspace.parametersOf number) := by
  rw [sound.parametersOf]
  exact Table.distinct_ofEntries _

/-- Steps that execute nothing: engines and executions stay, other cells stay. -/
theorem Sound.quiet (extended : Account) (after : Session)
    (changes : session.workspace.store.ChangesOnly after.workspace.store mine grown)
    (blobs : session.workspace.store.KeepsBlobs after.workspace.store)
    (wellKeyed : after.workspace.store.WellKeyed) (kept : ∀ value ∈ after.kept, value.Within grown)
    (binds : extended.Binds grown)
    (parameters : after.workspace.parameters.toList = extended.operations.map Table.ofEntries)
    (queries : after.workspace.queries.toList = extended.queries)
    (refers : ∀ query ∈ extended.queries, query.engine < session.workspace.engines.size
      ∧ query.parameters < extended.operations.length)
    (engines : after.workspace.engines = session.workspace.engines)
    (executions : extended.executions = account.executions)
    (writer : after.workspace.writer = session.workspace.writer) :
    Sound write extended after grown where
  writer := writer.trans sound.writer
  closed := changes.closed
  wellKeyed := wellKeyed
  kept := kept
  binds := binds
  parameters := parameters
  queries := queries
  refers := by
    rw [engines]
    exact refers
  executed := by
    rw [executions, engines]
    exact sound.executed
  logs := by
    intro engine state found
    rw [engines] at found
    obtain ⟨memory, same, logged⟩ := sound.logs engine state found
    refine ⟨memory, same, ?_⟩
    rw [executions]
    exact logged.imp fun execution entry kept => kept.of_changesOnly changes blobs

/-- A step that changes no object that a program works with. -/
theorem Sound.elsewhere (after : Session)
    (changes : session.workspace.store.ChangesOnly after.workspace.store mine grown)
    (blobs : session.workspace.store.KeepsBlobs after.workspace.store)
    (wellKeyed : after.workspace.store.WellKeyed) (kept : ∀ value ∈ after.kept, value.Within grown)
    (parameters : after.workspace.parameters = session.workspace.parameters)
    (queries : after.workspace.queries = session.workspace.queries)
    (engines : after.workspace.engines = session.workspace.engines)
    (writer : after.workspace.writer = session.workspace.writer) :
    Sound write account after grown :=
  sound.quiet account after changes blobs wellKeyed kept (sound.binds.mono changes.keeps)
    (by rw [parameters, sound.parameters]) (by rw [queries, sound.queries]) sound.refers engines rfl
    writer

theorem Sound.holding {kept : List Value} (within : ∀ value ∈ kept, value.Within mine) :
    Sound write account ⟨session.workspace, kept⟩ mine :=
  sound.elsewhere ⟨session.workspace, kept⟩ (.refl sound.closed) (fun _ _ read => read)
    sound.wellKeyed within rfl rfl rfl rfl

theorem Sound.keep {value : Value} (known : session.Knows value) :
    Sound write account (session.keep value) mine := by
  apply sound.holding
  intro other member
  rcases List.mem_cons.1 member with rfl | old
  · exact sound.within known
  · exact sound.kept other old

/-- A draft of known values is placed in cells that are known from then on. -/
theorem Sound.places {draft : Draft} (leaves : ∀ leaf ∈ draft.leaves, leaf.Within mine) :
    ∃ grown, (∀ ref, mine ref → grown ref)
      ∧ (session.workspace.store.place draft).1.Within grown
      ∧ ∀ kept : List Value, (∀ value ∈ kept, value.Within grown) →
        Sound write account ⟨{ session.workspace with
          store := (session.workspace.store.place draft).2 }, kept⟩ grown := by
  obtain ⟨grown, changes, placed⟩ := Store.changesOnly_place sound.closed draft leaves
  refine ⟨grown, changes.keeps, placed, fun kept within => ?_⟩
  apply sound.elsewhere ⟨{ session.workspace with
    store := (session.workspace.store.place draft).2 }, kept⟩ changes ?_
    (sound.wellKeyed.place draft) within rfl rfl rfl rfl
  exact .of_extends (Store.extends_place _ draft)

theorem Sound.build {draft : Draft} (known : ∀ value ∈ draft.leaves, session.Knows value) :
    ∃ grown, Sound write account (session.build draft) grown := by
  obtain ⟨grown, keeps, placed, placing⟩ :=
    sound.places fun value member => sound.within (known value member)
  refine ⟨grown, placing _ fun value member => ?_⟩
  rcases List.mem_cons.1 member with rfl | old
  · exact placed
  · exact (sound.kept value old).mono keeps

theorem Sound.change {mutation : Mutation} (known : session.Knows (.cell mutation.target))
    (container : ∀ held, session.workspace.store.read? mutation.target ≠ some (.blob held))
    (brought : ∀ value ∈ mutation.brings, session.Knows value)
    (distinct : ∀ ref fields, mutation = .overwrite ref (.object fields) → Table.Distinct fields) :
    ∃ grown, Sound write account (session.change mutation) grown := by
  obtain ⟨grown, changes⟩ := mutation.changesOnly sound.closed
    (sound.within known _ rfl) fun value member => sound.within (brought value member)
  refine ⟨grown, sound.elsewhere _ changes (mutation.keepsBlobs container)
    (mutation.wellKeyed sound.wellKeyed distinct) ?_ rfl rfl rfl rfl⟩
  exact fun value member => (sound.kept value member).mono changes.keeps

theorem Sound.newEngine :
    Sound write account (session.make (Action.newEngine (.memory .empty))) mine where
  writer := sound.writer
  closed := sound.closed
  wellKeyed := sound.wellKeyed
  kept := sound.kept
  binds := sound.binds
  parameters := sound.parameters
  queries := sound.queries
  refers := by
    intro query member
    obtain ⟨engine, parameters⟩ := sound.refers query member
    refine ⟨Nat.lt_of_lt_of_le engine ?_, parameters⟩
    exact (Array.size_push _).ge.trans' (Nat.le_succ _)
  executed := by
    intro execution member
    exact Nat.lt_of_lt_of_le (sound.executed execution member)
      ((Array.size_push _).ge.trans' (Nat.le_succ _))
  logs := by
    intro engine state found
    have pushed : (session.workspace.engines.push (.memory .empty))[engine]? = some state := found
    rw [Array.getElem?_push] at pushed
    split at pushed
    · next new =>
        cases pushed
        refine ⟨.empty, rfl, ?_⟩
        have none : account.executions.filter (fun execution => execution.engine = engine) =
            [] := by
          apply List.filter_eq_nil_iff.2
          intro execution member
          have old := sound.executed execution member
          simp only [decide_eq_true_eq]
          omega
        rw [none]
        exact .nil
    · exact sound.logs engine state pushed

/-- New parameters, whatever was done to them before, bind what the program knows. -/
theorem Sound.newParameters {source : Option Nat} {done : List Parameters.Operation}
    (copied : (source.map session.workspace.parametersOf).getD [] = Table.ofEntries done)
    (bound : ∀ parameter, some parameter ∈ done.map Prod.snd → parameter.value.Within mine) :
    Sound write (account.add done) (session.make (Action.newParameters source)) mine := by
  apply sound.quiet (account.add done) (session.make (Action.newParameters source))
    (.refl sound.closed) (fun _ _ read => read) sound.wellKeyed sound.kept (sound.binds.add bound)
    ?_ sound.queries ?_ rfl rfl rfl
  · show (session.workspace.parameters.push _).toList = _
    rw [Array.toList_push, sound.parameters, copied]
    show _ = List.map Table.ofEntries (account.operations ++ [done])
    rw [List.map_append]
    rfl
  · intro query member
    obtain ⟨engine, parameters⟩ := sound.refers query member
    refine ⟨engine, Nat.lt_of_lt_of_le parameters ?_⟩
    show _ ≤ (account.operations ++ [done]).length
    simp

theorem Sound.newQuery {engine parameters : Nat}
    (engineThere : engine < session.workspace.engines.size)
    (parametersThere : parameters < account.operations.length) (text : String)
    (database : Option String) :
    Sound write
      (account.ask ⟨engine, databaseFor session.workspace.settings database, text, parameters⟩)
      (session.make (Action.newQuery engine text database (some parameters))) mine := by
  apply sound.quiet (account.ask _)
    (session.make (Action.newQuery engine text database (some parameters))) (.refl sound.closed)
    (fun _ _ read => read) sound.wellKeyed sound.kept sound.binds sound.parameters ?_ ?_ rfl rfl
    rfl
  · show (session.workspace.queries.push _).toList = account.queries ++ _
    rw [Array.toList_push, sound.queries, orElse_eq_databaseFor]
  · intro query member
    rcases List.mem_append.1 member with old | new
    · exact sound.refers query old
    · rw [List.mem_singleton.1 new]
      exact ⟨engineThere, parametersThere⟩

theorem Sound.newQueryAlone {engine : Nat} (engineThere : engine < session.workspace.engines.size)
    (text : String) (database : Option String) :
    Sound write
      ((account.add []).ask ⟨engine, databaseFor session.workspace.settings database, text,
        account.operations.length⟩)
      (session.make (Action.newQuery engine text database none)) mine := by
  have added : Sound write (account.add []) (session.make (Action.newParameters none)) mine :=
    sound.newParameters rfl fun _ member => nomatch member
  have there : account.operations.length < (account.add []).operations.length := by
    rw [Account.add, List.length_append]
    exact Nat.lt_succ_self _
  rw [← sound.size_parameters] at there ⊢
  exact added.newQuery engineThere there text database

/-- What is held after a call is held before, given or handed out. -/
theorem Sound.held {arguments : List Object}
    (known : ∀ value ∈ arguments.flatMap Object.values, session.Knows value)
    (keeps : ∀ ref, mine ref → grown ref) {handed : List Value}
    (within : ∀ value ∈ handed, value.Within grown) :
    ∀ value ∈ handed ++ (arguments.flatMap Object.values ++ session.kept), value.Within grown := by
  rw [List.forall_mem_append, List.forall_mem_append]
  refine ⟨within, fun value member => ?_, fun value member => ?_⟩
  · exact (sound.within (known value member)).mono keeps
  · exact (sound.kept value member).mono keeps

/-- The parameters that are bound hold what the program knows. -/
theorem Sound.bound {number : Nat} {parameter : Parameter}
    (member : some parameter ∈ (session.workspace.parametersOf number).map Prod.snd) :
    parameter.value.Within mine := by
  rw [sound.parametersOf] at member
  have bound := Table.mem_values_ofEntries member
  rw [List.getD_eq_getElem?_getD] at bound
  cases found : account.operations[number]? with
  | none =>
      rw [found] at bound
      cases bound
  | some done =>
      rw [found] at bound
      exact sound.binds done (List.mem_of_getElem? found) parameter bound

theorem Sound.operates {number : Nat} {done : List Parameters.Operation}
    (found : account.operations[number]? = some done) {operation : Parameters.Operation}
    (bound : ∀ parameter, operation.2 = some parameter → parameter.value.Within mine)
    (nextIdentity : Identity) {kept : List Value} (within : ∀ value ∈ kept, value.Within mine) :
    Sound write (account.operate number done (some operation))
      ⟨{ session.workspace with
          parameters := session.workspace.parameters.setIfInBounds number
            (Table.put (session.workspace.parametersOf number) operation.1 operation.2)
          nextIdentity }, kept⟩ mine := by
  apply sound.quiet (account.operate number done (some operation)) ⟨{ session.workspace with
      parameters := session.workspace.parameters.setIfInBounds number
        (Table.put (session.workspace.parametersOf number) operation.1 operation.2)
      nextIdentity }, kept⟩
    (.refl sound.closed) (fun _ _ read => read) sound.wellKeyed within
    (sound.binds.operate found bound) ?_ sound.queries ?_ rfl rfl rfl
  · show (session.workspace.parameters.setIfInBounds _ _).toList =
      (account.operations.set number (done ++ [operation])).map Table.ofEntries
    rw [Array.toList_setIfInBounds, sound.parameters, sound.parametersOf_of_found found,
      List.map_set, Table.ofEntries_append_singleton]
  · intro query member
    obtain ⟨engine, parameters⟩ := sound.refers query member
    refine ⟨engine, ?_⟩
    show _ < (account.operations.set _ _).length
    rw [List.length_set]
    exact parameters

theorem Sound.callParameters [Machine] (copies : write.CopiesContainers) {number : Nat}
    {done : List Parameters.Operation} (found : account.operations[number]? = some done)
    (method : String) {arguments : List Object}
    (known : ∀ value ∈ arguments.flatMap Object.values, session.Knows value) :
    ∃ grown, Sound write
      (account.operate number done
        (Parameters.operation? session.workspace.nextIdentity method arguments))
      (session.call (.parameters number) method arguments) grown := by
  have going := Action.parametersCall session.workspace number method arguments
  show ∃ grown, Sound write _
    ⟨((Action.callParameters number method arguments).run.run session.workspace).2,
      Action.handedOut ((Action.callParameters number method arguments).run.run session.workspace).1
        ++ (arguments.flatMap Object.values ++ session.kept)⟩ grown
  generalize operates : Parameters.operation? session.workspace.nextIdentity method arguments =
    operation at going
  generalize (Action.callParameters number method arguments).run.run session.workspace = outcome
    at going
  cases going with
  | copies draft read =>
      have leaves : ∀ leaf ∈ draft.leaves, leaf.Within mine := by
        rcases read with written | rfl
        · rw [sound.writer] at written
          exact Parameters.within_of_draft copies sound.wellKeyed written sound.closed
            fun parameter => sound.bound
        · exact Parameters.within_leaves_texts mine _
      obtain ⟨grown, keeps, placed, sheltered⟩ := sound.places leaves
      refine ⟨grown, ?_⟩
      rw [Account.operate_none found]
      apply sheltered
      apply sound.held known keeps
      intro value member
      rw [List.mem_singleton.1 member]
      exact placed
  | operates operation nextIdentity =>
      refine ⟨mine, sound.operates found ?_ nextIdentity ?_⟩
      · intro parameter same
        obtain ⟨name, slot⟩ := operation
        subst same
        rcases Parameters.value_of_operation? operates with given | plain
        · apply sound.within
          apply known
          exact List.mem_flatMap.2 ⟨_, given, List.mem_singleton_self _⟩
        · exact fun ref same => absurd same (plain ref)
      · apply sound.held known (fun _ owned => owned)
        exact fun value member => nomatch member
  | rests result nextIdentity handed =>
      refine ⟨mine, ?_⟩
      rw [Account.operate_none found]
      apply sound.elsewhere ⟨{ session.workspace with nextIdentity }, _⟩ (.refl sound.closed)
        (fun _ _ read => read) sound.wellKeyed ?_ rfl rfl rfl rfl
      apply sound.held known (fun _ owned => owned)
      intro value member
      rcases handed value member with plain | ⟨name, parameter, got, rfl⟩
      · exact fun ref same => absurd same (plain ref)
      · exact sound.bound (Parameters.mem_of_get? got)

end Sound

end Soundness

end Session

end DocumentStore
