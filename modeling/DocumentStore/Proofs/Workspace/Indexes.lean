import DocumentStore.Proofs.Engine.Indexes
import DocumentStore.Proofs.Expression.Definitions
import DocumentStore.Proofs.Workspace.Calls
import DocumentStore.Proofs.Workspace.Dates

/-!
Contract: the indexes of a collection are those that were created last and not deleted since.

Owns: the calls that are about an index, the runs beside an index, and that a definition is kept in
all of them as it was when the index was created.

Does not own: what other calls do.
-/

set_option autoImplicit false

namespace DocumentStore

/-! ### Runs beside an index -/

namespace Workspace

/-- A call is about an index: it creates or deletes it, through a collection or through the engine
itself. -/
inductive CallsIndex (workspace : Workspace) (engine : Nat) :
    Address × String → Object → String → List Object → Prop where
  | create {number : Nat} {address : Address}
      (linked : workspace.collection number = ⟨engine, address⟩) (name : String)
      (identity : Identity) (index : Index) :
      CallsIndex workspace engine (address, name) (.collection number) "create_index"
        [.value (.text name), .index identity index]
  | delete {number : Nat} {address : Address}
      (linked : workspace.collection number = ⟨engine, address⟩) (name : String) :
      CallsIndex workspace engine (address, name) (.collection number) "delete_index"
        [.value (.text name)]
  | createDirectly (identity : Identity) (address : Address) (name : String) (definition : Value) :
      CallsIndex workspace engine (address, name) (.engine engine) "create_index"
        [.address identity address, .value (.text name), .value definition]
  | deleteDirectly (identity : Identity) (address : Address) (name : String) :
      CallsIndex workspace engine (address, name) (.engine engine) "delete_index"
        [.address identity address, .value (.text name)]

/-- A run in which no call creates or deletes an index. Calls that are about the index fail, and
what happens between two calls leaves the engine alone. -/
inductive RunsBeside [Machine] (engine : Nat) (key : Address × String) (workspace : Workspace) :
    Workspace → Prop where
  | rest : RunsBeside engine key workspace workspace
  | call {between : Workspace} (before : RunsBeside engine key workspace between) (object : Object)
      (method : String) (arguments : List Object)
      (beside : between.CallsIndex engine key object method arguments →
        ∃ failure, ((Action.call object method arguments).run.run between).1 = .error failure) :
      RunsBeside engine key workspace ((Action.call object method arguments).run.run between).2
  | other {between after : Workspace} (before : RunsBeside engine key workspace between)
      (same : after.engines[engine]? = between.engines[engine]?) :
      RunsBeside engine key workspace after

/-- An engine holds this definition of an index. -/
def HoldsIndex (workspace : Workspace) (engine : Nat) (key : Address × String) (definition : Json) :
    Prop :=
  ∃ memory, workspace.engines[engine]? = some (.memory memory)
    ∧ Table.value? memory.indexes key = some definition

end Workspace

/-- Only two requests are about indexes. -/
theorem Event.indexingOf?_of_name {event : Event}
    (other : event.request.name ∉ ["create_index", "delete_index"]) (key : Address × String) :
    event.indexingOf? key = none := by
  have none : event.indexing? = none := by
    unfold Event.indexing?
    split
    · simp [Request.name] at other
    · simp [Request.name] at other
    · rfl
  rw [Event.indexingOf?, none]

namespace Action

variable {workspace : Workspace} {engine : Nat} {key : Address × String}

/-! ### Creating and deleting -/

/-- A request put to an engine that keeps everything in memory ends as the engine's step does. -/
theorem result_requestOf [Machine] {number : Nat} {address : Address} {memory : Memory}
    (linked : workspace.collection number = ⟨engine, address⟩)
    (found : workspace.engines[engine]? = some (.memory memory)) (make : Address → Request Value) :
    ((requestOf number make).run.run workspace).1 =
      (memory.step ((make address).map workspace.store.unfold)).1.result := by
  rw [requestOf, run_bind, run_get]
  dsimp only
  rw [linked, request, run_converse, found]
  rfl

/-- An action whose result does not matter. -/
theorem run_bind_nothing {α : Type} (first : Action α) :
    (first >>= fun _ => pure () : Action Unit).run.run workspace =
      ((first.run.run workspace).1.map fun _ => (), (first.run.run workspace).2) := by
  rw [run_bind]
  cases first.run.run workspace with
  | mk result after => cases result <;> rfl

/-- An index is created from its definition at the time, which is given to the engine in new
containers. -/
theorem run_createIndex [Machine] (workspace : Workspace) (number : Nat) (name : String)
    (index : Index) :
    ∃ log, (createIndex number name index).run.run workspace =
      match index.definition workspace.store with
      | .error failure => (.error failure, { workspace with log })
      | .ok definition =>
          let placed := workspace.store.place definition
          let asked := (requestOf number fun address => .createIndex address name placed.1).run.run
            { workspace with log, store := placed.2 }
          (asked.1.map fun _ => (), asked.2) := by
  obtain ⟨log, reporting⟩ := run_reportIn workspace number .info
    ("Creating " ++ index.typeWord ++ " index " ++ name) "on"
  refine ⟨log, ?_⟩
  rw [createIndex, run_bind, reporting]
  dsimp only
  cases defined : index.definition workspace.store with
  | error failure => rw [run_bind, run_consult_of_error (show index.definition _ = _ from defined)]
  | ok definition =>
      have placing : (place definition).run.run { workspace with log } =
          (.ok (workspace.store.place definition).1,
            { workspace with log, store := (workspace.store.place definition).2 }) := rfl
      rw [run_bind, run_consult (show index.definition _ = _ from defined)]
      dsimp only
      rw [run_bind, placing]
      exact run_bind_nothing _

theorem run_deleteIndex [Machine] (workspace : Workspace) (number : Nat) (name : String) :
    ∃ log, (deleteIndex number name).run.run workspace =
      let asked := (requestOf number fun address => .deleteIndex address name).run.run
        { workspace with log }
      (asked.1.map fun _ => (), asked.2) := by
  obtain ⟨log, reporting⟩ := run_reportIn workspace number .info ("Deleting index " ++ name) "on"
  refine ⟨log, ?_⟩
  rw [deleteIndex, run_bind, reporting]
  exact run_bind_nothing _

/-! ### Calls beside an index -/

theorem indexingOf?_createIndex_of_ne {address : Address} {name : String} {definition : Tree}
    {outcome : Outcome} (other : (address, name) ≠ key) :
    Event.indexingOf? key ⟨.createIndex address name definition, outcome⟩ = none := by
  obtain ⟨result, log⟩ := outcome
  cases result with
  | error failure => rfl
  | ok reply => exact if_neg other

theorem indexingOf?_deleteIndex_of_ne {address : Address} {name : String} {outcome : Outcome}
    (other : (address, name) ≠ key) :
    Event.indexingOf? key ⟨.deleteIndex address name, outcome⟩ = none := by
  obtain ⟨result, log⟩ := outcome
  cases result with
  | error failure => rfl
  | ok reply => exact if_neg other

theorem indexingOf?_of_failed {request : Request Tree} {outcome : Outcome} {failure : Failure}
    (failed : outcome.result = .error failure) : Event.indexingOf? key ⟨request, outcome⟩ = none := by
  obtain ⟨result, log⟩ := outcome
  cases failed
  cases request <;> rfl

/-- A request about an index leaves every other index alone, and this one if it fails. -/
theorem proceeds_requestOf_of_beside [Machine] {number : Nat} {make : Address → Request Value}
    {name : String}
    (others : ∀ address transform outcome, (address, name) ≠ key →
      Event.indexingOf? key ⟨(make address).map transform, outcome⟩ = none)
    (beside : workspace.collection number = ⟨engine, key.1⟩ → name = key.2 →
      ∃ failure, ((requestOf number make).run.run workspace).1 = .error failure) :
    workspace.Proceeds engine (fun event => event.indexingOf? key = none)
      ((requestOf number make).run.run workspace).2 := by
  rw [requestOf, run_bind, run_get]
  apply proceeds_request
  intro sameEngine memory found
  by_cases about : ((workspace.collection number).address, name) = key
  · have linked : workspace.collection number = ⟨engine, key.1⟩ := by
      rw [← about, ← sameEngine]
    obtain ⟨failure, failed⟩ := beside linked (by rw [← about])
    rw [result_requestOf linked found] at failed
    rw [linked]
    exact indexingOf?_of_failed failed
  · exact others _ _ _ about

theorem exists_error_of_map {α : Type} {result : Except Failure α} {failure : Failure}
    (failed : (result.map fun _ => ()) = .error failure) : ∃ failure, result = .error failure := by
  cases result with
  | error cause => exact ⟨cause, rfl⟩
  | ok value => cases failed

theorem proceeds_createIndex [Machine] (number : Nat) (name : String) (index : Index)
    (beside : workspace.collection number = ⟨engine, key.1⟩ → name = key.2 →
      ∃ failure, ((createIndex number name index).run.run workspace).1 = .error failure) :
    workspace.Proceeds engine (fun event => event.indexingOf? key = none)
      ((createIndex number name index).run.run workspace).2 := by
  obtain ⟨log, running⟩ := run_createIndex workspace number name index
  rw [running] at beside ⊢
  cases defined : index.definition workspace.store with
  | error failure => exact Workspace.proceeds_of_engine rfl
  | ok definition =>
      have defining : workspace.Proceeds engine (fun event => event.indexingOf? key = none)
          { workspace with log, store := (workspace.store.place definition).2 } :=
        Workspace.proceeds_of_engine rfl
      rw [defined] at beside
      apply defining.trans
      apply proceeds_requestOf_of_beside
      · exact fun address transform outcome other => indexingOf?_createIndex_of_ne other
      · intro linked same
        obtain ⟨failure, failed⟩ := beside linked same
        exact exists_error_of_map failed

theorem proceeds_deleteIndex [Machine] (number : Nat) (name : String)
    (beside : workspace.collection number = ⟨engine, key.1⟩ → name = key.2 →
      ∃ failure, ((deleteIndex number name).run.run workspace).1 = .error failure) :
    workspace.Proceeds engine (fun event => event.indexingOf? key = none)
      ((deleteIndex number name).run.run workspace).2 := by
  obtain ⟨log, running⟩ := run_deleteIndex workspace number name
  have reporting : workspace.Proceeds engine (fun event => event.indexingOf? key = none)
      { workspace with log } := Workspace.proceeds_of_engine rfl
  rw [running] at beside ⊢
  apply reporting.trans
  apply proceeds_requestOf_of_beside
  · exact fun address transform outcome other => indexingOf?_deleteIndex_of_ne other
  · intro linked same
    obtain ⟨failure, failed⟩ := beside linked same
    exact exists_error_of_map failed

/-! ### Methods of an engine -/

theorem requestFor?_createIndex {method : String} {arguments : List Object} {address : Address}
    {name : String} {definition : Value}
    (making : requestFor? method arguments = some (.createIndex address name definition)) :
    method = "create_index" ∧ ∃ identity,
      arguments = [.address identity address, .value (.text name), .value definition] := by
  unfold requestFor? at making
  split at making
  case h_6 identity _ _ _ =>
    cases making
    exact ⟨rfl, identity, rfl⟩
  all_goals simp [Option.bind_eq_some_iff] at making

theorem requestFor?_deleteIndex {method : String} {arguments : List Object} {address : Address}
    {name : String} (making : requestFor? method arguments = some (.deleteIndex address name)) :
    method = "delete_index" ∧ ∃ identity,
      arguments = [.address identity address, .value (.text name)] := by
  unfold requestFor? at making
  split at making
  case h_7 identity _ _ =>
    cases making
    exact ⟨rfl, identity, rfl⟩
  all_goals simp [Option.bind_eq_some_iff] at making

/-- A method of an engine fails only as the engine does. -/
theorem result_of_callEngine_failed [Machine] {memory : Memory} {method : String}
    {arguments : List Object} {asked : Request Value}
    (found : workspace.engines[engine]? = some (.memory memory))
    (making : requestFor? method arguments = some asked)
    (failed : ∃ failure, ((callEngine engine method arguments).run.run workspace).1 = .error failure) :
    ∃ failure, (memory.step (asked.map workspace.store.unfold)).1.result = .error failure := by
  obtain ⟨failure, failed⟩ := failed
  cases answered : (memory.step (asked.map workspace.store.unfold)).1.result with
  | error cause => exact ⟨cause, rfl⟩
  | ok reply =>
      have succeeds : (receive reply >>= fun object => pure (some object) :
          Action (Option Object)).Succeeds :=
        (succeeds_receive reply).bind fun _ => succeeds_pure _
      rw [callEngine, run_bind, run_get] at failed
      dsimp only at failed
      rw [found] at failed
      dsimp only at failed
      rw [making] at failed
      dsimp only at failed
      rw [run_bind, request, run_converse, found] at failed
      have performed : (DocumentEngine.perform workspace.store asked (Engine.memory memory)).1.result =
          .ok reply := answered
      dsimp only at failed
      rw [performed] at failed
      dsimp only at failed
      obtain ⟨value, succeeded⟩ := succeeds _
      rw [succeeded] at failed
      cases failed

/-- Giving nothing fails as the action does. -/
theorem exists_error_of_giveNothing {action : Action Unit}
    (failed : ∃ failure, ((giveNothing action).run.run workspace).1 = .error failure) :
    ∃ failure, (action.run.run workspace).1 = .error failure := by
  obtain ⟨failure, failed⟩ := failed
  rw [giveNothing, run_bind] at failed
  cases run : action.run.run workspace with
  | mk result after =>
      rw [run] at failed
      cases result with
      | error cause => exact ⟨cause, rfl⟩
      | ok value => cases failed

/-- What a method of an engine asks does nothing to an index, unless the call is about the index and
succeeds. -/
theorem indexingOf?_requestFor? [Machine] {memory : Memory} {method : String}
    {arguments : List Object} {asked : Request Value}
    (found : workspace.engines[engine]? = some (.memory memory))
    (making : requestFor? method arguments = some asked)
    (beside : workspace.CallsIndex engine key (.engine engine) method arguments →
      ∃ failure, ((callEngine engine method arguments).run.run workspace).1 = .error failure) :
    Event.indexingOf? key ⟨asked.map workspace.store.unfold,
      (memory.step (asked.map workspace.store.unfold)).1⟩ = none := by
  by_cases about : workspace.CallsIndex engine key (.engine engine) method arguments
  · obtain ⟨failure, failed⟩ := result_of_callEngine_failed found making (beside about)
    exact indexingOf?_of_failed failed
  · cases asked with
    | createIndex address name definition =>
        obtain ⟨rfl, identity, rfl⟩ := requestFor?_createIndex making
        apply indexingOf?_createIndex_of_ne
        rintro rfl
        exact about (.createDirectly identity address name definition)
    | deleteIndex address name =>
        obtain ⟨rfl, identity, rfl⟩ := requestFor?_deleteIndex making
        apply indexingOf?_deleteIndex_of_ne
        rintro rfl
        exact about (.deleteDirectly identity address name)
    | _ => rfl

/-- A call leaves an index alone, unless it is about the index and succeeds. -/
theorem proceeds_call [Machine] (object : Object) (method : String) (arguments : List Object)
    (beside : workspace.CallsIndex engine key object method arguments →
      ∃ failure, ((call object method arguments).run.run workspace).1 = .error failure) :
    workspace.Proceeds engine (fun event => event.indexingOf? key = none)
      ((call object method arguments).run.run workspace).2 := by
  have ordinary : ∀ event : Event, event.IsOrdinary → event.indexingOf? key = none := by
    intro event isOrdinary
    apply Event.indexingOf?_of_name
    simp only [Event.IsOrdinary, List.mem_cons, not_or] at isOrdinary
    simp [isOrdinary]
  cases object with
  | document number => exact (asks_callDocument number method arguments workspace).mono ordinary
  | collection number =>
      apply proceeds_callCollection number method arguments workspace ordinary
      · rintro name identity index rfl rfl
        apply proceeds_createIndex
        intro linked same
        subst same
        exact exists_error_of_giveNothing (beside (.create linked key.2 identity index))
      · rintro name rfl rfl
        apply proceeds_deleteIndex
        intro linked same
        subst same
        exact exists_error_of_giveNothing (beside (.delete linked key.2))
  | parameters number => exact (quiet_callParameters number method arguments).asks workspace
  | query number =>
      apply (asks_callQuery number method arguments workspace).mono
      rintro event (isOrdinary | ⟨_, named⟩)
      · exact ordinary event isOrdinary
      · exact Event.indexingOf?_of_name (by simp [named]) key
  | engine number =>
      apply proceeds_callEngine
      rintro asked making rfl memory found
      exact indexingOf?_requestFor? found making beside
  | expression identity expression =>
      exact (quiet_callExpression identity expression method arguments).asks workspace
  | sortOrder identity order => exact (quiet_callSortOrder order method arguments).asks workspace
  | index identity index => exact (quiet_callIndex index method arguments).asks workspace
  | value value =>
      have quiet : (call (.value value) method arguments).Quiet := by
        apply quiet_get.bind
        intro workspace
        split
        · exact quiet_callBlob _ _ _
        · exact quiet_unknown
      exact quiet.asks workspace
  | _ => exact quiet_unknown.asks workspace

/-- A run beside an index leaves it alone. -/
theorem proceeds_of_runsBeside [Machine] {after : Workspace}
    (runs : workspace.RunsBeside engine key after) :
    workspace.Proceeds engine (fun event => event.indexingOf? key = none) after := by
  induction runs with
  | rest => exact Workspace.proceeds_of_engine rfl
  | call _ object method arguments beside inductionHypothesis =>
      exact inductionHypothesis.trans (proceeds_call object method arguments beside)
  | other _ same inductionHypothesis =>
      exact inductionHypothesis.trans (Workspace.proceeds_of_engine same)

/-! ### The indexes of a collection -/

section Registry

variable {requests : List (Request Tree)} {number : Nat} {address : Address}

/-- An index that was created last holds the copy of its definition. -/
theorem holdsIndex_of_created [Machine] (keeps : workspace.Keeps engine requests)
    {definition : Tree}
    (created : lastIndexing (Memory.empty.history requests) key = some (.created definition)) :
    ∃ stored, definition.throughText false = .ok stored ∧ workspace.HoldsIndex engine key stored := by
  have registers := (Memory.holdsIndexes_afterRun requests).registers key
  rw [created] at registers
  cases held : Table.value? (Memory.empty.afterRun requests).indexes key with
  | none =>
      rw [held] at registers
      cases registers
  | some stored =>
      rw [held] at registers
      cases registers with
      | created copying => exact ⟨stored, copying, _, keeps, held⟩

/-- It still holds the copy after a run in which nothing succeeds in creating or deleting it. -/
theorem holdsIndex_of_runsBeside [Machine] (keeps : workspace.Keeps engine requests)
    {definition : Tree}
    (created : lastIndexing (Memory.empty.history requests) key = some (.created definition))
    {later : Workspace} (runs : workspace.RunsBeside engine key later) :
    ∃ stored, definition.throughText false = .ok stored ∧ later.HoldsIndex engine key stored := by
  obtain ⟨more, keepsLater, silent⟩ := proceeds_of_runsBeside runs requests keeps
  apply holdsIndex_of_created keepsLater
  rw [Memory.history_append, lastIndexing_append_of_silent _ silent]
  exact created

/-- The names of the indexes are given in a new list. -/
theorem run_indexNames [Machine] (keeps : workspace.Keeps engine requests)
    (linked : workspace.collection number = ⟨engine, address⟩) :
    ∃ value after, (indexNames number).run.run workspace = (.ok (.value value), after)
      ∧ after.store.unfold value =
        (Json.array (((Memory.empty.afterRun requests).indexNames address).map .text)).toTree := by
  obtain ⟨log, requesting⟩ := run_requestOf keeps linked .getIndexes
  have drafts := Store.Drafts.array
    (Store.DraftsItems.texts workspace.store ((Memory.empty.afterRun requests).indexNames address))
  have plain := drafts.place (.refl _)
  refine ⟨_, { workspace.answered engine (Memory.empty.afterRun requests) log with
    store := (workspace.store.place (.array (((Memory.empty.afterRun requests).indexNames
      address).map .text))).2 }, ?_, plain.unfold_eq⟩
  rw [indexNames, run_bind, requesting]
  rfl

/-- An index that is created from a definition is created last. -/
theorem run_createIndex_of_defined [Machine] (keeps : workspace.Keeps engine requests)
    (linked : workspace.collection number = ⟨engine, address⟩) {index : Index} {definition : Draft}
    {json : Json} (defined : index.definition workspace.store = .ok definition)
    (drafts : workspace.store.Drafts definition json) (name : String) :
    ∃ after, (createIndex number name index).run.run workspace = (.ok (), after)
      ∧ after.Keeps engine (requests ++ [.createIndex address name json.toTree])
      ∧ lastIndexing (Memory.empty.history
          (requests ++ [.createIndex address name json.toTree])) (address, name) =
        some (.created json.toTree) := by
  obtain ⟨log, running⟩ := run_createIndex workspace number name index
  have plain := drafts.place (.refl _)
  generalize placement : workspace.store.place definition = placed at running plain
  obtain ⟨value, store⟩ := placed
  have keepsPlaced : ({ workspace with log, store } : Workspace).Keeps engine requests := keeps
  obtain ⟨answeredLog, requesting⟩ := run_requestOf keepsPlaced linked fun address =>
    .createIndex address name value
  have copying : ((Memory.empty.afterRun requests).step (.createIndex address name json.toTree)).1 =
      ⟨.ok .nothing, [⟨.info, Memory.logger,
        "Registered index " ++ name ++ " on " ++ address.fullName⟩]⟩ := by
    simp only [Memory.step, Memory.createIndex, plain.throughText false]
  rw [defined] at running
  rw [Request.map, plain.unfold_eq, copying] at requesting
  refine ⟨_, ?_, keepsPlaced.answered _ answeredLog, ?_⟩
  · rw [running]
    dsimp only
    rw [placement, requesting]
    rfl
  · rw [Memory.history_append, lastIndexing_append, Memory.history_cons, copying]
    simp [lastIndexing, Event.indexingOf?, Event.indexing?]

/-- An engine that is left in the same state is left alone. -/
theorem answered_of_same [Machine] (keeps : workspace.Keeps engine requests)
    (log : Array LogRecord) :
    workspace.answered engine (Memory.empty.afterRun requests) log = { workspace with log } := by
  have same : workspace.engines.setIfInBounds engine (.memory (Memory.empty.afterRun requests)) =
      workspace.engines := by
    apply Array.ext_getElem?
    intro other
    by_cases about : engine = other
    · subst about
      rw [Array.getElem?_setIfInBounds_self_of_lt (Array.getElem?_eq_some_iff.1 keeps).1]
      exact keeps.symm
    · exact Array.getElem?_setIfInBounds_ne about
  rw [Workspace.answered, same]

/-- Deleting an index that is not there changes the log only. -/
theorem run_deleteIndex_of_absent [Machine] (keeps : workspace.Keeps engine requests)
    (linked : workspace.collection number = ⟨engine, address⟩) {name : String}
    (absent : name ∉ (Memory.empty.afterRun requests).indexNames address) :
    ∃ log, (deleteIndex number name).run.run workspace = (.ok (), { workspace with log }) := by
  obtain ⟨reported, running⟩ := run_deleteIndex workspace number name
  have keepsReported : ({ workspace with log := reported } : Workspace).Keeps engine requests := keeps
  obtain ⟨log, requesting⟩ := run_requestOf keepsReported linked fun address =>
    .deleteIndex address name
  rw [Request.map, Memory.step_deleteIndex_of_absent absent, answered_of_same keepsReported]
    at requesting
  refine ⟨log, ?_⟩
  rw [running, requesting]
  rfl

/-- What a descriptor gives as its definition, it gives in new containers. -/
theorem definition_of_toJson {index : Index} {value : Value} {shown : Workspace}
    (showing : (callIndex index "to_json" []).run.run workspace =
      (.ok (some (.value value)), shown)) :
    ∃ definition, index.definition workspace.store = .ok definition
      ∧ value = (workspace.store.place definition).1
      ∧ shown = { workspace with store := (workspace.store.place definition).2 } := by
  have unfolded : callIndex index "to_json" [] = (consult index.definition >>= giveDraft) := rfl
  rw [unfolded, run_bind] at showing
  cases defined : index.definition workspace.store with
  | error failure =>
      rw [run_consult_of_error defined] at showing
      cases showing
  | ok definition =>
      rw [run_consult defined] at showing
      cases showing
      exact ⟨definition, rfl, rfl, rfl⟩

/-- The names of the indexes of a collection stand in strictly ascending order, and they are those
of the indexes that were created last and not deleted since. -/
structure ListsCreated [Machine] (workspace : Workspace) (engine : Nat)
    (requests : List (Request Tree)) (address : Address) (names : List String) : Prop where
  ascending : names.Pairwise (· < ·)
  created : ∀ name, name ∈ names
    ↔ IsCreated (lastIndexing (Memory.empty.history requests) (address, name))
  answered : ((Memory.empty.afterRun requests).step (.getIndexes address)).1 =
    .answer (.value (.array (names.map .text)))
  listed : ∀ number, workspace.collection number = ⟨engine, address⟩ →
    ∃ value after,
      (callCollection number "indexes" []).run.run workspace = (.ok (some (.value value)), after)
        ∧ after.store.unfold value = (Json.array (names.map .text)).toTree

/-- What a descriptor gives as its definition is what an index created from it holds, in every run
in which no other call succeeds in creating or deleting this index. -/
def HoldsShown [Machine] (workspace : Workspace) (engine : Nat) (requests : List (Request Tree))
    (address : Address) (number : Nat) (name : String) (identity : Identity) (index : Index) :
    Prop :=
  ∀ value shown,
    (callIndex index "to_json" []).run.run workspace = (.ok (some (.value value)), shown) →
      ∃ definition : Json, shown.store.unfold value = definition.toTree
        ∧ ∃ after, (callCollection number "create_index"
            [.value (.text name), .index identity index]).run.run workspace =
              (.ok (some (.value .null)), after)
          ∧ after.Keeps engine (requests ++ [.createIndex address name definition.toTree])
          ∧ ∀ later, after.RunsBeside engine (address, name) later →
            later.HoldsIndex engine (address, name) definition

/-- The indexes of a collection are what their last changes made of them: they are listed, the
registry holds the copy of each definition that was created last, and deleting an index that is not
there changes nothing in the engine, and the log only where it is deleted through a collection. An
index over moments and JSON trees holds what its descriptor shows. -/
structure FollowsLastChange [Machine] (workspace : Workspace) (engine : Nat)
    (requests : List (Request Tree)) (address : Address) : Prop where
  listing : ∃ names, ListsCreated workspace engine requests address names
  holding : ∀ name definition,
    lastIndexing (Memory.empty.history requests) (address, name) = some (.created definition) →
      ∃ stored, definition.throughText false = .ok stored
        ∧ workspace.HoldsIndex engine (address, name) stored
  absent : ∀ name,
    ¬IsCreated (lastIndexing (Memory.empty.history requests) (address, name)) →
      (Memory.empty.afterRun requests).step (.deleteIndex address name) =
          (.answer .nothing, Memory.empty.afterRun requests)
        ∧ ∀ number, workspace.collection number = ⟨engine, address⟩ →
          ∃ log, (callCollection number "delete_index" [.value (.text name)]).run.run workspace =
            (.ok (some (.value .null)), { workspace with log })
  creating : ∀ number, workspace.collection number = ⟨engine, address⟩ →
    ∀ name identity (index : Index),
      Expression.EachLiteralIn (Expression.IsLiteral workspace.store) index.expressions →
        HoldsShown workspace engine requests address number name identity index

/-- In every program, the indexes of each collection follow their last changes. -/
theorem indexes_follow_their_last_change [Machine] (keeps : workspace.Keeps engine requests)
    (address : Address) : FollowsLastChange workspace engine requests address := by
  obtain ⟨ascending, created⟩ := Memory.indexNames_afterRun requests address
  refine ⟨⟨_, ascending, created, rfl, ?_⟩, ?_, ?_, ?_⟩
  · intro number linked
    obtain ⟨value, after, running, unfolded⟩ := run_indexNames keeps linked
    refine ⟨value, after, ?_, unfolded⟩
    show (indexNames number >>= fun object => pure (some object) :
      Action (Option Object)).run.run workspace = _
    rw [run_bind, running]
    rfl
  · exact fun name definition => holdsIndex_of_created keeps
  · intro name absent
    rw [← created] at absent
    refine ⟨Memory.step_deleteIndex_of_absent absent, ?_⟩
    intro number linked
    obtain ⟨log, deleting⟩ := run_deleteIndex_of_absent keeps linked absent
    refine ⟨log, ?_⟩
    show (giveNothing (deleteIndex number name)).run.run workspace = _
    rw [giveNothing, run_bind, deleting]
    rfl
  · intro number linked name identity index literals value shown showing
    obtain ⟨definition, defined, rfl, rfl⟩ := definition_of_toJson showing
    obtain ⟨json, drafts⟩ := index.draftsJson_definition literals defined
    have plain := drafts.place (.refl _)
    obtain ⟨after, creating, keepsAfter, isLast⟩ :=
      run_createIndex_of_defined keeps linked defined drafts name
    refine ⟨json, plain.unfold_eq, after, ?_, keepsAfter, ?_⟩
    · show (giveNothing (createIndex number name index)).run.run workspace = _
      rw [giveNothing, run_bind, creating]
      rfl
    · intro later runs
      obtain ⟨stored, copying, holds⟩ := holdsIndex_of_runsBeside keepsAfter isLast runs
      rw [plain.throughText false] at copying
      cases copying
      exact holds

/-- A program with a list of tags, a collection, and an engine that was not asked anything yet. -/
def taggingWorkspace : Workspace :=
  { Workspace.start [] with
    store := ⟨#[.array [.text "old", .integer 7]]⟩
    collections := #[⟨0, Memory.notes⟩]
    engines := #[.memory .empty] }

/-- An index over the documents that have one of the tags. -/
def taggingIndex : Index :=
  .ofTexts [.binary .isIn (.ofProperty "tag") (.aggregate [.literal (.cell 0)]),
    .collated (.literal (.text "new")) .ascii]

/-- The tags may grow, and the descriptor may be given another language. -/
theorem tagging_index_keeps_its_definition :
    taggingWorkspace.Keeps 0 []
      ∧ Expression.EachLiteralIn (Expression.IsLiteral taggingWorkspace.store)
        taggingIndex.expressions
      ∧ (∃ value shown definition after,
        (callIndex taggingIndex "to_json" []).run.run taggingWorkspace =
            (.ok (some (.value value)), shown)
          ∧ shown.store.unfold value = definition.toTree
          ∧ (callCollection 0 "create_index" [.value (.text "tags"), .index 4 taggingIndex]).run.run
            taggingWorkspace = (.ok (some (.value .null)), after)
          ∧ ((call (.index 4 taggingIndex) "set_language" [.value .null]).run.run
              { after with store := after.store.append 0 (.text "newer") }).2.HoldsIndex 0
            (Memory.notes, "tags") definition)
      ∧ ∃ log, (callCollection 0 "delete_index" [.value (.text "dates")]).run.run taggingWorkspace =
        (.ok (some (.value .null)), { taggingWorkspace with log }) := by
  have keeps : taggingWorkspace.Keeps 0 [] := rfl
  have linked : taggingWorkspace.collection 0 = ⟨0, Memory.notes⟩ := rfl
  have literals : Expression.EachLiteralIn (Expression.IsLiteral taggingWorkspace.store)
      taggingIndex.expressions := by
    have short : digitCount 7 ≤ digitLimit := by decide
    have tags : taggingWorkspace.store.Plain (.cell 0) (.array [.text "old", .integer 7]) :=
      .array rfl (.cons (.text _) (.cons (.integer short) .nil))
    have new : taggingWorkspace.store.Plain (.text "new") (.text "new") := .text _
    exact ⟨⟨trivial, .inr ⟨_, tags⟩, trivial⟩, .inr ⟨_, new⟩, trivial⟩
  have follows := indexes_follow_their_last_change keeps Memory.notes
  refine ⟨keeps, literals, ?_, ?_⟩
  · obtain ⟨value, shown, showing⟩ : ∃ value shown,
        (callIndex taggingIndex "to_json" []).run.run taggingWorkspace =
          (.ok (some (.value value)), shown) := ⟨_, _, rfl⟩
    obtain ⟨definition, unfolded, after, creating, _, holds⟩ :=
      follows.creating 0 linked "tags" 4 taggingIndex literals value shown showing
    refine ⟨value, shown, definition, after, showing, unfolded, creating, holds _ ?_⟩
    apply Workspace.RunsBeside.call
    · exact .other .rest rfl
    · intro about
      cases about
  · refine (follows.absent "dates" ?_).2 0 linked
    rintro ⟨definition, present⟩
    cases present

end Registry

end Action

end DocumentStore
