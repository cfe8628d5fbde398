import DocumentStore.Proofs.Workspace.Parameters

/-!
Contract: what the methods of a query do where its engine keeps everything in memory.

Owns: the execution and the explanation of a query, and the ways in which a call can go.

Does not own: what becomes of the log afterwards.
-/

set_option autoImplicit false

namespace DocumentStore

/-- What a call of a query does besides reading it: it executes it or gives it other parameters. -/
inductive Query.Effect where
  | execution
  | parameters (number : Nat)

/-- The effect of a method of a query. -/
def Query.effect? (method : String) (arguments : List Object) : Option Query.Effect :=
  match method, arguments with
  | "execute", [] => some .execution
  | "set_parameters", [.parameters number] => some (.parameters number)
  | _, _ => none

theorem Query.mem_of_effect? {method : String} {arguments : List Object} {parameters : Nat}
    (effects : effect? method arguments = some (.parameters parameters)) :
    .parameters parameters ∈ arguments := by
  unfold effect? at effects
  split at effects
  · cases effects
  · cases effects
    exact List.mem_singleton_self _
  · cases effects

namespace Action

/-- How a call of a method of a query can go, if its engine keeps everything in memory. -/
inductive QueryCall (workspace : Workspace) (number : Nat) (memory : Memory) :
    Option Query.Effect → Except Failure (Option Object) × Workspace → Prop where
  | executes (log : Array LogRecord) {written : Draft} (placed answered : Value × Store)
      (writing : (workspace.parametersOf (workspace.query number).parameters).draft workspace.writer
        workspace.store = .ok written)
      (placing : workspace.store.place written = placed)
      (answering : placed.2.place (.array []) = answered) :
      QueryCall workspace number memory (some .execution)
        (.ok (some (.value answered.1)),
          { workspace with
            store := answered.2
            engines := workspace.engines.setIfInBounds (workspace.query number).engine
              (.memory { memory with
                queries := memory.queries ++ [⟨(workspace.query number).database,
                  (workspace.query number).text, placed.1⟩] })
            log })
  | refuses (log : Array LogRecord) {failure : Failure}
      (writing : (workspace.parametersOf (workspace.query number).parameters).draft workspace.writer
        workspace.store = .error failure) :
      QueryCall workspace number memory (some .execution) (.error failure, { workspace with log })
  | explains (log : Array LogRecord) (draft : Draft) :
      QueryCall workspace number memory none
        (.ok (some (.value (.text ""))),
          { workspace with store := (workspace.store.place draft).2, log })
  | sets (parameters : Nat) :
      QueryCall workspace number memory (some (.parameters parameters))
        (.ok (some (.value .null)),
          { workspace with
            queries := workspace.queries.setIfInBounds number
              { workspace.query number with parameters } })
  | rests (result : Except Failure (Option Object))
      (plain : ∀ value ∈ handedOut result, ∀ ref, value ≠ .cell ref) :
      QueryCall workspace number memory none (result, workspace)

section Calls

variable {workspace : Workspace} {number : Nat} {memory : Memory}

/-- The engine of a query has it in its log, and answers that nothing was found. -/
theorem run_executeQuery [Machine] {engine : Nat}
    (found : workspace.engines[engine]? = some (.memory memory)) (database text : String)
    (values : Value) :
    ∃ log, (request engine (.executeQuery database text values)).run.run workspace =
      (.ok (.value (.array [])),
        { workspace with
          engines := workspace.engines.setIfInBounds engine
            (.memory { memory with queries := memory.queries ++ [⟨database, text, values⟩] })
          log }) := by
  rw [request, run_converse, found]
  exact ⟨_, rfl⟩

theorem engines_setIfInBounds_of_found {engine : Nat} {state : Engine}
    (found : workspace.engines[engine]? = some state) :
    workspace.engines.setIfInBounds engine state = workspace.engines := by
  apply Array.ext_getElem?
  intro other
  by_cases same : engine = other
  · subst same
    rw [found]
    exact Array.getElem?_setIfInBounds_self_of_lt (Array.getElem?_eq_some_iff.1 found).1
  · exact Array.getElem?_setIfInBounds_ne same

theorem run_explainQuery [Machine] {engine : Nat}
    (found : workspace.engines[engine]? = some (.memory memory)) (database text : String)
    (values : Value) :
    ∃ log, (request engine (.explainQuery database text values)).run.run workspace =
      (.ok (.value (.value (.text ""))), { workspace with log }) := by
  have same := engines_setIfInBounds_of_found found
  rw [request, run_converse, found]
  refine ⟨workspace.log ++ ([] : List LogRecord), ?_⟩
  show (_, { workspace with
    engines := workspace.engines.setIfInBounds engine (.memory memory), log := _ }) = _
  rw [same]
  rfl

variable (found : workspace.engines[(workspace.query number).engine]? = some (.memory memory))

section Writing

theorem run_report (workspace : Workspace) (record : LogRecord) :
    ∃ log, (report record).run.run workspace = (.ok ⟨⟩, { workspace with log }) :=
  ⟨_, rfl⟩

variable [Machine]

theorem run_execute_of_error {failure : Failure}
    (refused : (workspace.parametersOf (workspace.query number).parameters).draft workspace.writer
      workspace.store = .error failure) :
    ∃ log, (execute number).run.run workspace = (.error failure, { workspace with log }) := by
  rw [execute, run_bind, run_get]
  dsimp only
  obtain ⟨log, reporting⟩ := run_report workspace ⟨.debug, queryLogger, _⟩
  rw [run_bind, reporting]
  dsimp only
  refine ⟨log, ?_⟩
  rw [run_bind, @run_parameterValues_of_error { workspace with log } _ _ refused]

theorem run_explain_of_error {failure : Failure}
    (refused : (workspace.parametersOf (workspace.query number).parameters).draft workspace.writer
      workspace.store = .error failure) :
    (explain number).run.run workspace = (.error failure, workspace) := by
  rw [explain, run_bind, run_get]
  dsimp only
  rw [run_bind, run_parameterValues_of_error refused]

variable {written : Draft} (writing : (workspace.parametersOf
  (workspace.query number).parameters).draft workspace.writer workspace.store = .ok written)

include found writing

/-- The query is logged with the parameters in new containers, and an empty list is handed out. -/
theorem run_execute : ∃ log, (execute number).run.run workspace =
    (.ok (.value ((workspace.store.place written).2.place (.array [])).1),
      { workspace with
        store := ((workspace.store.place written).2.place (.array [])).2
        engines := workspace.engines.setIfInBounds (workspace.query number).engine
          (.memory { memory with
            queries := memory.queries ++ [⟨(workspace.query number).database,
              (workspace.query number).text, (workspace.store.place written).1⟩] })
        log }) := by
  rw [execute, run_bind, run_get]
  dsimp only
  obtain ⟨log, reporting⟩ := run_report workspace ⟨.debug, queryLogger, _⟩
  rw [run_bind, reporting]
  dsimp only
  rw [run_bind, @run_parameterValues { workspace with log } _ _ writing]
  dsimp only
  obtain ⟨log, asking⟩ := @run_executeQuery
    { workspace with store := (workspace.store.place written).2, log } memory _ _ found
    (workspace.query number).database (workspace.query number).text (workspace.store.place written).1
  refine ⟨log, ?_⟩
  rw [run_bind, asking]
  rfl

theorem run_explain : ∃ log, (explain number).run.run workspace =
    (.ok (.value (.text "")),
      { workspace with store := (workspace.store.place written).2, log }) := by
  rw [explain, run_bind, run_get]
  dsimp only
  rw [run_bind, run_parameterValues writing]
  dsimp only
  obtain ⟨log, asking⟩ := @run_explainQuery
    { workspace with store := (workspace.store.place written).2 } memory _ _ found
    (workspace.query number).database (workspace.query number).text (workspace.store.place written).1
  refine ⟨log, ?_⟩
  rw [run_bind, asking]
  rfl

end Writing

include found

/-- Every call goes one of these ways. -/
theorem queryCall [Machine] (method : String) (arguments : List Object) :
    QueryCall workspace number memory (Query.effect? method arguments)
      ((callQuery number method arguments).run.run workspace) := by
  rw [callQuery, run_bind, run_get]
  dsimp only
  split
  · exact .rests (.ok (some (.value _))) (by simp [handedOut, Object.values])
  · exact .rests (.ok (some (.value _))) (by simp [handedOut, Object.values])
  · exact .rests (.ok (some (.parameters _))) (by simp [handedOut, Object.values])
  · exact .sets _
  · cases writing : (workspace.parametersOf (workspace.query number).parameters).draft
        workspace.writer workspace.store with
    | ok written =>
        obtain ⟨log, running⟩ := run_execute found writing
        rw [run_bind, running]
        exact .executes log _ _ writing rfl rfl
    | error failure =>
        obtain ⟨log, running⟩ := run_execute_of_error writing
        rw [run_bind, running]
        exact .refuses log writing
  · cases writing : (workspace.parametersOf (workspace.query number).parameters).draft
        workspace.writer workspace.store with
    | ok written =>
        obtain ⟨log, running⟩ := run_explain found writing
        rw [run_bind, running]
        exact .explains log written
    | error failure =>
        rw [run_bind, run_explain_of_error writing]
        exact .rests (.error failure) (by simp [handedOut])
  · have idle : Query.effect? method arguments = none := by
      rw [Query.effect?] <;> assumption
    rw [idle]
    exact .rests (.ok none) (by simp [handedOut])

end Calls

end Action

end DocumentStore
