import DocumentStore.Proofs.Workspace.Sessions

/-!
Contract: the log of an engine has every query that was executed, with its parameters as they were.

Owns: the steps that call a query, and what can be read of parameters and of logs after any run.

Does not own: what an engine answers to a query.
-/

set_option autoImplicit false

namespace DocumentStore.Session

variable {write : Parameter.Writer} {session after : Session} {account extended : Account}
  {mine grown : Ref → Prop}

section Sound

variable (sound : Sound write account session mine)

include sound

/-! ### Calls of queries -/

/-- What the parameters of a query are for an engine is what was done to them shows. -/
theorem Sound.shown (query : Query) :
    (session.workspace.parametersOf query.parameters).draft session.workspace.writer
      session.workspace.store = account.shown session.workspace query := by
  rw [sound.parametersOf, Parameters.draft_ofEntries]
  rfl

/-- The parameters of a query are placed as they are written, in cells that the program does not
know. -/
theorem Sound.copied (copies : write.CopiesContainers) {query : Query} {written : Draft}
    (writing : (session.workspace.parametersOf query.parameters).draft session.workspace.writer
      session.workspace.store = .ok written) {placed : Value × Store}
    (placing : session.workspace.store.place written = placed) :
    placed.2.Copied mine placed.2.size placed.1 written := by
  subst placing
  rw [sound.writer] at writing
  exact Store.copied_place _
    (Parameters.isCopy_of_draft copies sound.wellKeyed writing (sound.distinct _))
    (Parameters.onlyBlobs_of_draft copies sound.wellKeyed writing) sound.closed.present (.refl _)

/-- With one more entry in the log of its engine, the logs have one more execution. -/
theorem Sound.logs_of_entry {store : Store} {memory : Memory} {execution : Execution}
    {entry : ExecutedQuery}
    (found : session.workspace.engines[execution.engine]? = some (.memory memory))
    (changes : session.workspace.store.ChangesOnly store mine grown)
    (blobs : session.workspace.store.KeepsBlobs store)
    (kept : execution.KeptAs store grown entry) (engine : Nat) {state : Engine}
    (foundAfter : (session.workspace.engines.setIfInBounds execution.engine
      (.memory { memory with queries := memory.queries ++ [entry] }))[engine]? = some state) :
    ∃ memory : Memory, state = .memory memory
      ∧ List.Forall₂ (Execution.KeptAs · store grown)
        ((account.executions ++ [execution]).filter fun execution => execution.engine = engine)
        memory.queries := by
  rw [List.filter_append]
  by_cases same : execution.engine = engine
  · subst same
    have present := (Array.getElem?_eq_some_iff.1 found).1
    rw [Array.getElem?_setIfInBounds_self_of_lt present] at foundAfter
    refine ⟨_, (Option.some.inj foundAfter).symm, ?_⟩
    obtain ⟨_, sameMemory, keptBefore⟩ := sound.logs _ _ found
    cases sameMemory
    have others := keptBefore.imp fun execution entry kept => kept.of_changesOnly changes blobs
    have itself : [execution].filter (fun other => other.engine = execution.engine) =
      [execution] := by simp
    rw [itself]
    exact List.rel_append others (.cons kept .nil)
  · rw [Array.getElem?_setIfInBounds_ne same] at foundAfter
    obtain ⟨memory, sameMemory, keptBefore⟩ := sound.logs _ _ foundAfter
    have others := keptBefore.imp fun execution entry kept => kept.of_changesOnly changes blobs
    have foreign : [execution].filter (fun other => other.engine = engine) = [] := by simp [same]
    rw [foreign, List.append_nil]
    exact ⟨memory, sameMemory, others⟩

/-- A query that is executed is logged as it is. Its parameters are placed before the answer, which
alone the program gets to know. -/
theorem Sound.executes (copies : write.CopiesContainers) {number : Nat} {memory : Memory}
    (found : session.workspace.engines[(session.workspace.query number).engine]? =
      some (.memory memory)) {written : Draft} {placed answered : Value × Store}
    (writing : (session.workspace.parametersOf (session.workspace.query number).parameters).draft
      session.workspace.writer session.workspace.store = .ok written)
    (placing : session.workspace.store.place written = placed)
    (answering : placed.2.place (.array []) = answered) (log : Array LogRecord) :
    ∃ grown, (∀ ref, mine ref → grown ref) ∧ answered.1.Within grown
      ∧ ∀ kept : List Value, (∀ value ∈ kept, value.Within grown) →
        Sound write
          (account.callQuery number (session.workspace.query number) session.workspace
            (some .execution))
          ⟨{ session.workspace with
              store := answered.2
              engines := session.workspace.engines.setIfInBounds
                (session.workspace.query number).engine
                (.memory { memory with
                  queries := memory.queries ++ [⟨(session.workspace.query number).database,
                    (session.workspace.query number).text, placed.1⟩] })
              log }, kept⟩ grown := by
  have extension : Store.Extends placed.2 session.workspace.store := by
    rw [← placing]
    exact Store.extends_place _ _
  have answerExtends : Store.Extends answered.2 placed.2 := by
    rw [← answering]
    exact Store.extends_place _ _
  have aside := Store.ChangesOnly.of_extends sound.closed extension
  obtain ⟨grown, answer, within⟩ := Store.changesOnly_place aside.closed (.array [])
    fun _ member => nomatch member
  rw [answering] at answer within
  have changes := aside.trans answer
  have blobs := Store.KeepsBlobs.of_extends (answerExtends.trans extension)
  let query := session.workspace.query number
  let execution : Execution := ⟨query.engine, query.database, query.text, written⟩
  have logged : execution.KeptAs answered.2 grown ⟨query.database, query.text, placed.1⟩ := by
    refine ⟨rfl, rfl, placed.2.size, answer.size_le, ?_⟩
    exact (sound.copied copies writing placing).of_changesOnly answer
      (.of_extends answerExtends) (Nat.le_refl _)
  have counted : account.callQuery number query session.workspace (some .execution) =
      { account with executions := account.executions ++ [execution] } := by
    rw [Account.callQuery, ← sound.shown, writing]
  refine ⟨grown, answer.keeps, within, fun kept knows => ?_⟩
  rw [counted]
  exact {
    writer := sound.writer
    closed := changes.closed
    wellKeyed := by
      rw [← answering, ← placing]
      exact (sound.wellKeyed.place _).place _
    kept := knows
    binds := sound.binds.mono changes.keeps
    parameters := sound.parameters
    queries := sound.queries
    refers := by
      intro other member
      obtain ⟨engine, parameters⟩ := sound.refers other member
      exact ⟨engine.trans_eq (Array.size_setIfInBounds ..).symm, parameters⟩
    executed := by
      intro other member
      rw [Array.size_setIfInBounds]
      rcases List.mem_append.1 member with old | new
      · exact sound.executed other old
      · rw [List.mem_singleton.1 new]
        exact (Array.getElem?_eq_some_iff.1 found).1
    logs := fun engine state foundAfter =>
      @Sound.logs_of_entry _ _ _ _ _ sound _ _ execution _ found changes blobs logged engine _
        foundAfter }

theorem Sound.sets {number parameters : Nat} {query : Query}
    (found : account.queries[number]? = some query)
    (parametersThere : parameters < account.operations.length) {kept : List Value}
    (within : ∀ value ∈ kept, value.Within mine) :
    Sound write (account.callQuery number query session.workspace (some (.parameters parameters)))
      ⟨{ session.workspace with
          queries := session.workspace.queries.setIfInBounds number { query with parameters } },
        kept⟩ mine := by
  apply sound.quiet (account.callQuery number query _ (some (.parameters parameters)))
    ⟨{ session.workspace with
        queries := session.workspace.queries.setIfInBounds number { query with parameters } }, kept⟩
    (.refl sound.closed) (fun _ _ read => read) sound.wellKeyed within sound.binds sound.parameters
    ?_ ?_ rfl rfl rfl
  · show (session.workspace.queries.setIfInBounds _ _).toList = account.queries.set _ _
    rw [Array.toList_setIfInBounds, sound.queries]
  · intro other member
    rcases List.mem_or_eq_of_mem_set member with old | rfl
    · exact sound.refers other old
    · exact ⟨(sound.refers query (List.mem_of_getElem? found)).1, parametersThere⟩

theorem Sound.query {number : Nat} {query : Query} (found : account.queries[number]? = some query) :
    session.workspace.query number = query := by
  have there : session.workspace.queries[number]? = some query := by
    rw [← Array.getElem?_toList, sound.queries, found]
  rw [Workspace.query, Array.getD_eq_getD_getElem?, there]
  rfl

theorem Sound.callQuery [Machine] (copies : write.CopiesContainers) {number : Nat} {query : Query}
    (found : account.queries[number]? = some query) (method : String) {arguments : List Object}
    (known : ∀ value ∈ arguments.flatMap Object.values, session.Knows value)
    (parametersThere : ∀ parameters, .parameters parameters ∈ arguments →
      parameters < account.operations.length) :
    ∃ grown, Sound write
      (account.callQuery number query session.workspace (Query.effect? method arguments))
      (session.call (.query number) method arguments) grown := by
  obtain rfl := sound.query found
  obtain ⟨engineThere, _⟩ := sound.refers _ (List.mem_of_getElem? found)
  obtain ⟨memory, same, _⟩ := sound.logs _ _ (Array.getElem?_eq_getElem engineThere)
  have foundEngine : session.workspace.engines[(session.workspace.query number).engine]? =
      some (.memory memory) := by
    rw [Array.getElem?_eq_getElem engineThere, same]
  have going := Action.queryCall foundEngine method arguments
  show ∃ grown, Sound write _
    ⟨((Action.callQuery number method arguments).run.run session.workspace).2,
      Action.handedOut ((Action.callQuery number method arguments).run.run session.workspace).1
        ++ (arguments.flatMap Object.values ++ session.kept)⟩ grown
  generalize effects : Query.effect? method arguments = effect at going ⊢
  generalize (Action.callQuery number method arguments).run.run session.workspace = outcome
    at going ⊢
  cases going with
  | executes log placed answered writing placing answering =>
      obtain ⟨grown, keeps, within, executed⟩ :=
        sound.executes copies foundEngine writing placing answering log
      refine ⟨grown, executed _ (sound.held known keeps ?_)⟩
      intro value member
      rw [List.mem_singleton.1 member]
      exact within
  | refuses log writing =>
      have uncounted : account.callQuery number (session.workspace.query number) session.workspace
          (some .execution) = account := by
        rw [Account.callQuery, ← sound.shown, writing]
      refine ⟨mine, ?_⟩
      rw [uncounted]
      apply sound.elsewhere ⟨{ session.workspace with log }, _⟩ (.refl sound.closed)
        (fun _ _ read => read) sound.wellKeyed ?_ rfl rfl rfl rfl
      apply sound.held known (fun _ owned => owned)
      exact fun value member => nomatch member
  | explains log draft =>
      have extension := Store.extends_place session.workspace.store draft
      refine ⟨mine, ?_⟩
      apply sound.elsewhere ⟨{ session.workspace with
          store := (session.workspace.store.place draft).2, log }, _⟩
        (.of_extends sound.closed extension) (.of_extends extension) (sound.wellKeyed.place draft)
        ?_ rfl rfl rfl rfl
      apply sound.held known (fun _ owned => owned)
      intro value member
      rw [List.mem_singleton.1 member]
      exact Value.within_text ""
  | sets parameters =>
      have there := parametersThere parameters (Query.mem_of_effect? effects)
      refine ⟨mine, sound.sets found there (sound.held known (fun _ owned => owned) ?_)⟩
      intro value member
      rw [List.mem_singleton.1 member]
      rintro ref ⟨⟩
  | rests result plain =>
      refine ⟨mine, sound.holding ?_⟩
      apply sound.held known (fun _ owned => owned)
      exact fun value member ref same => absurd same (plain value member ref)

/-! ### Runs -/

/-- Every step keeps a session sound. -/
theorem Sound.step [Machine] (copies : write.CopiesContainers)
    (step : Step account session extended after) :
    ∃ grown, Sound write extended after grown := by
  cases step with
  | keep known => exact ⟨mine, sound.keep known⟩
  | build known => exact sound.build known
  | change mutation known container brought distinct =>
      exact sound.change known container brought distinct
  | newEngine => exact ⟨mine, sound.newEngine⟩
  | newParameters => exact ⟨mine, sound.newParameters rfl fun _ member => nomatch member⟩
  | @copyParameters source done found =>
      refine ⟨mine, sound.newParameters (sound.parametersOf_of_found found) ?_⟩
      exact sound.binds done (List.mem_of_getElem? found)
  | callParameters found method arguments known => exact sound.callParameters copies found method known
  | newQuery engineThere parametersThere text database =>
      exact ⟨mine, sound.newQuery engineThere parametersThere text database⟩
  | newQueryAlone engineThere text database =>
      exact ⟨mine, sound.newQueryAlone engineThere text database⟩
  | callQuery found method arguments known parametersThere =>
      exact sound.callQuery copies found method known parametersThere

end Sound

/-- Every run leaves a session sound. -/
theorem Runs.sound [Machine] {environment : Table String String} (copies : write.CopiesContainers)
    (runs : Runs environment write account session) :
    ∃ mine, Sound write account session mine := by
  induction runs with
  | start => exact ⟨_, sound_start environment⟩
  | step before step inductionHypothesis =>
      obtain ⟨mine, sound⟩ := inductionHypothesis
      exact sound.step copies step

/-- A session is what its account tells: the methods of each parameters object show what was done to
it, and to no other one, and the log of each engine has the executions of its queries, one entry for
each of them and in their order: the database, the text, and the parameters as they were at the
time. -/
structure Tells [Machine] (account : Account) (session : Session) : Prop where
  size_parameters : session.workspace.parameters.size = account.operations.length
  showsParameters : ∀ (number : Nat) (done : List Parameters.Operation),
    account.operations[number]? = some done → session.workspace.ShowsParameters number done
  logs : ∀ (engine : Nat) (state : Engine), session.workspace.engines[engine]? = some state →
    ∃ memory : Memory, state = .memory memory
      ∧ List.Forall₂ (Execution.LoggedAs · session.workspace.store)
        (account.executions.filter fun execution => execution.engine = engine) memory.queries

/-- With a writer that copies containers, every session is what its account tells, and still has the
writer it started with. -/
theorem Runs.shows_parameters_and_logs_executions [Machine] {write : Parameter.Writer}
    (copies : write.CopiesContainers) {environment : Table String String} {account : Account}
    {session : Session} (runs : Runs environment write account session) :
    session.workspace.writer = write ∧ Tells account session := by
  obtain ⟨mine, sound⟩ := runs.sound copies
  refine ⟨sound.writer, sound.size_parameters, ?_, ?_⟩
  · intro number done found
    exact Workspace.showsParameters (sound.writer ▸ copies) (sound.parametersOf_of_found found)
  · intro engine state found
    obtain ⟨memory, same, logged⟩ := sound.logs engine state found
    exact ⟨memory, same, logged.imp fun execution entry kept => kept.logged⟩

/-- A list is bound to a name, a copy of the parameters is made, and a query that has them. -/
def searching : Session :=
  let bound := (((start [] .copying).make (Action.newEngine (.memory .empty))).make
    (Action.newParameters none)).build (.array [.value (.integer 1)])
  ((bound.call (.parameters 0) "set_value" [.value (.text "ids"), .value (.cell 0)]).make
    (Action.newParameters (some 0))).make (Action.newQuery 0 "SELECT" none (some 0))

/-- The query is executed, the list grows, the copy is changed, the name is removed from the
parameters of the query, and the query is executed again. -/
def searchingTwice : Session :=
  (((((searching.call (.query 0) "execute" []).change (.append 0 (.integer 2))).call (.parameters 1)
    "set_int" [.value (.text "limit"), .value (.integer 7)]).call (.parameters 0) "remove"
      [.value (.text "ids")]).call (.query 0) "execute" [])

/-- The parameter that the list is bound with. -/
def idsParameter : Parameter :=
  ⟨Expression.documentProperties.length, .cell 0, .value⟩

theorem runs_searching :
    Runs [] .copying ⟨[[("ids", some idsParameter)], [("ids", some idsParameter)]],
      [⟨0, "doclite", "SELECT", 0⟩], []⟩ searching := by
  let listed := (((start [] .copying).make (Action.newEngine (.memory .empty))).make
    (Action.newParameters none)).build (.array [.value (.integer 1)])
  have listing : Runs [] .copying ⟨[[]], [], []⟩ listed := by
    refine ((Runs.start.step .newEngine).step .newParameters).step (.build ?_)
    exact List.forall_mem_singleton.2 (knows_of_plain (by rintro ref ⟨⟩))
  have given : ∀ value ∈ [.text "ids", .cell 0], listed.Knows value := by
    refine List.forall_mem_cons.2 ⟨knows_of_plain (by rintro ref ⟨⟩), ?_⟩
    exact List.forall_mem_singleton.2 (knows_of_mem List.mem_cons_self)
  have found : (⟨[[]], [], []⟩ : Account).operations[0]? = some [] := rfl
  exact ((listing.step (.callParameters found "set_value" [.value (.text "ids"), .value (.cell 0)]
    given)).step (.copyParameters rfl)).step
      (.newQuery (Nat.lt_succ_self 0) (Nat.lt_succ_of_lt (Nat.lt_succ_self 0)) "SELECT" none)

/-- The first execution has the list as it was. -/
def firstExecution : Execution :=
  ⟨0, "doclite", "SELECT", .object [("ids",
    .object [("value", .array [.value (.integer 1)]), ("type", .text "value")])]⟩

/-- The second execution finds the name unbound. -/
def secondExecution : Execution :=
  ⟨0, "doclite", "SELECT", .object [("ids", .value .null)]⟩

/-- The account of it. -/
def searchingAccount : Account where
  operations := [[("ids", some idsParameter), ("ids", none)],
    [("ids", some idsParameter),
      ("limit", some ⟨Expression.documentProperties.length + 1, .integer 7, .int⟩)]]
  queries := [⟨0, "doclite", "SELECT", 0⟩]
  executions := [firstExecution, secondExecution]

theorem runs_searchingTwice : Runs [] .copying searchingAccount searchingTwice := by
  let executed := searching.call (.query 0) "execute" []
  have query : ([⟨0, "doclite", "SELECT", 0⟩] : List Query)[0]? =
    some ⟨0, "doclite", "SELECT", 0⟩ := rfl
  have text : ∀ (session : Session) (text : String), session.Knows (.text text) :=
    fun session text => knows_of_plain (by rintro ref ⟨⟩)
  have integer : ∀ (session : Session) (number : Int), session.Knows (.integer number) :=
    fun session number => knows_of_plain (by rintro ref ⟨⟩)
  have list : executed.Knows (.cell 0) := by
    apply knows_of_mem
    show _ ∈ [_, _, _, _]
    simp
  have read : executed.workspace.store.read? 0 = some (.array [.integer 1]) := rfl
  have container : ∀ held, executed.workspace.store.read? 0 ≠ some (.blob held) := by
    rw [read]
    rintro held ⟨⟩
  have executing := runs_searching.step (.callQuery query "execute" [] (by simp) (by simp))
  have changing := executing.step (.change (.append 0 (.integer 2)) list container
    (List.forall_mem_singleton.2 (integer _ _)) (by rintro ref fields ⟨⟩))
  have limiting := changing.step (@Step.callParameters _ _ _ 1 [("ids", some idsParameter)] rfl
    "set_int" [.value (.text "limit"), .value (.integer 7)]
    (List.forall_mem_cons.2 ⟨text _ _, List.forall_mem_singleton.2 (integer _ _)⟩))
  have removing := limiting.step (@Step.callParameters _ _ _ 0 [("ids", some idsParameter)] rfl
    "remove" [.value (.text "ids")] (List.forall_mem_singleton.2 (text _ _)))
  have executingAgain := removing.step (.callQuery query "execute" [] (by simp) (by simp))
  exact executingAgain

/-- The log has the list as it was at the first execution, whatever became of it since, and the copy
of the parameters still has it, as it is now. -/
theorem searching_is_logged_as_it_was :
    Parameter.Writer.copying.CopiesContainers
      ∧ Runs [] .copying searchingAccount searchingTwice
      ∧ searchingTwice.workspace.store.read? 0 = some (.array [.integer 1, .integer 2])
      ∧ searchingTwice.workspace.ShowsParameters 0 [("ids", some idsParameter), ("ids", none)]
      ∧ (Action.call (.parameters 1) "get" [.value (.text "ids")]).run.run
          searchingTwice.workspace =
        (.ok (some (.parameter idsParameter)), searchingTwice.workspace)
      ∧ searchingTwice.workspace.Gives (.parameters 1) "to_json" [] (.object
        [("ids", .object [("value", .array [.value (.integer 1), .value (.integer 2)]),
            ("type", .text "value")]),
          ("limit", .object [("value", .value (.integer 7)), ("type", .text "int")])])
      ∧ ∃ (memory : Memory) (first second : ExecutedQuery),
        searchingTwice.workspace.engines[0]? = some (.memory memory)
          ∧ memory.queries = [first, second]
          ∧ first.database = "doclite" ∧ first.query = "SELECT"
          ∧ (searchingTwice.workspace.store.unfold first.parameters).copy? =
            some (.object [("ids", .object [("value", .array [.value (.integer 1)]),
              ("type", .text "value")])])
          ∧ (searchingTwice.workspace.store.unfold second.parameters).copy? =
            some (.object [("ids", .value .null)]) := by
  have copies := Parameter.Writer.copiesContainers_copying
  have runs := runs_searchingTwice
  obtain ⟨_, _, shows, logs⟩ := Runs.shows_parameters_and_logs_executions copies runs
  refine ⟨copies, runs, rfl, shows 0 _ rfl, (shows 1 _ rfl).get "ids", ?_, ?_⟩
  · exact (shows 1 _ rfl).copying _ (.cons ⟨rfl, _, rfl, rfl⟩ (.cons ⟨rfl, _, rfl, rfl⟩ .nil))
  have engine : ∃ state, searchingTwice.workspace.engines[0]? = some state := ⟨_, rfl⟩
  obtain ⟨state, found⟩ := engine
  obtain ⟨memory, rfl, logged⟩ := logs 0 state found
  have executions : (searchingAccount.executions.filter fun execution => execution.engine = 0) =
    [firstExecution, secondExecution] := rfl
  rw [executions] at logged
  obtain ⟨first, rest, firstLogged, restLogged, queries⟩ := List.forall₂_cons_left_iff.1 logged
  obtain ⟨second, none, secondLogged, noneLogged, rfl⟩ := List.forall₂_cons_left_iff.1 restLogged
  cases List.forall₂_nil_left_iff.1 noneLogged
  exact ⟨memory, first, second, found, queries, firstLogged.database, firstLogged.text,
    firstLogged.parameters, secondLogged.parameters⟩

end DocumentStore.Session
