import DocumentStore.Proofs.Engine.Failures
import DocumentStore.Proofs.Workspace.Conflicts
import DocumentStore.Workspace.Methods

/-!
Contract: what a call that fails leaves in a workspace.

Owns: the actions that leave the documents, the cells and the engines' records alone, whether
they fail or not, those that do so when they fail, and how both are put together.

Does not own: what calls that succeed do.

An action fails safely when its steps come in the right order: those that only read and those
that can fail before they change anything come first, and after a step that may have changed
something nothing can fail any more. `Reads.bind_failsSafely` and `FailsSafely.bind_succeeds` are
these two rules.
-/

set_option autoImplicit false

namespace DocumentStore

/-- A workspace after a call that did nothing to documents, to cells that were there and to the
records of engines that keep them in memory. -/
structure Workspace.Spared (before after : Workspace) : Prop where
  documents : after.documents = before.documents
  cells : Store.Extends after.store before.store
  records : ∀ (engine : Nat) (memory : Memory), before.engines[engine]? = some (.memory memory) →
    ∃ kept, after.engines[engine]? = some (.memory kept) ∧ memory.SameRecords kept

namespace Workspace.Spared

theorem refl (workspace : Workspace) : workspace.Spared workspace where
  documents := rfl
  cells := .refl _
  records := fun _ memory found => ⟨memory, found, .refl memory⟩

theorem trans {before between after : Workspace} (first : before.Spared between)
    (second : between.Spared after) : before.Spared after where
  documents := second.documents.trans first.documents
  cells := second.cells.trans first.cells
  records := by
    intro engine memory found
    obtain ⟨kept, foundKept, same⟩ := first.records engine memory found
    obtain ⟨last, foundLast, sameLast⟩ := second.records engine kept foundKept
    exact ⟨last, foundLast, same.trans sameLast⟩

end Workspace.Spared

/-- An engine that was asked something, with another state. -/
theorem Workspace.spared_of_engine {workspace : Workspace} {engine : Nat} {state after : Engine}
    (found : workspace.engines[engine]? = some state)
    (kept : ∀ memory, state = .memory memory →
      ∃ kept, after = .memory kept ∧ memory.SameRecords kept) (log : Array LogRecord) :
    workspace.Spared
      { workspace with engines := workspace.engines.setIfInBounds engine after, log } where
  documents := rfl
  cells := .refl _
  records := by
    intro other memory foundOther
    by_cases same : engine = other
    · subst same
      obtain ⟨last, rfl, records⟩ := kept memory (Option.some.inj (found.symm.trans foundOther))
      refine ⟨last, ?_, records⟩
      exact Array.getElem?_setIfInBounds_self_of_lt (Array.getElem?_eq_some_iff.1 found).1
    · refine ⟨memory, ?_, .refl memory⟩
      rw [Array.getElem?_setIfInBounds_ne same]
      exact foundOther

namespace Action

variable {α β : Type}

/-- An action that spares everything, whether it fails or not. -/
def Reads (action : Action α) : Prop :=
  ∀ workspace : Workspace, workspace.Spared (action.run.run workspace).2

/-- An action that spares everything if it fails. -/
def FailsSafely (action : Action α) : Prop :=
  ∀ (workspace : Workspace) (failure : Failure), (action.run.run workspace).1 = .error failure →
    workspace.Spared (action.run.run workspace).2

/-- An action that does not fail. -/
def Succeeds (action : Action α) : Prop :=
  ∀ workspace : Workspace, ∃ value, (action.run.run workspace).1 = .ok value

/-! ### Rules -/

section Rules

variable {first : Action α} {others : α → Action β}

theorem Reads.failsSafely (reads : first.Reads) : first.FailsSafely :=
  fun workspace _ _ => reads workspace

theorem Succeeds.failsSafely (succeeds : first.Succeeds) : first.FailsSafely := by
  intro workspace failure failed
  obtain ⟨value, succeeded⟩ := succeeds workspace
  rw [succeeded] at failed
  cases failed

theorem Reads.bind (reads : first.Reads) (othersRead : ∀ value, (others value).Reads) :
    (first >>= others).Reads := by
  intro workspace
  have spared := reads workspace
  rw [run_bind]
  cases run : first.run.run workspace with
  | mk result between =>
      rw [run] at spared
      cases result with
      | error failure => exact spared
      | ok value => exact spared.trans (othersRead value between)

/-- After a step that only reads, the other steps may fail as long as they fail safely. -/
theorem Reads.bind_failsSafely (reads : first.Reads)
    (othersFail : ∀ value, (others value).FailsSafely) : (first >>= others).FailsSafely := by
  intro workspace failure failed
  have spared := reads workspace
  rw [run_bind] at failed ⊢
  cases run : first.run.run workspace with
  | mk result between =>
      rw [run] at spared failed
      cases result with
      | error cause => exact spared
      | ok value => exact spared.trans (othersFail value between failure failed)

/-- After a step that fails safely but may change something when it does not fail, the other
steps must not fail. -/
theorem FailsSafely.bind_succeeds (failsSafely : first.FailsSafely)
    (othersSucceed : ∀ value, (others value).Succeeds) : (first >>= others).FailsSafely := by
  intro workspace failure failed
  have spared := failsSafely workspace
  rw [run_bind] at failed ⊢
  cases run : first.run.run workspace with
  | mk result between =>
      rw [run] at spared failed
      cases result with
      | error cause => exact spared cause rfl
      | ok value =>
          obtain ⟨last, succeeded⟩ := othersSucceed value between
          dsimp only at failed
          rw [succeeded] at failed
          cases failed

theorem Succeeds.bind (succeeds : first.Succeeds)
    (othersSucceed : ∀ value, (others value).Succeeds) : (first >>= others).Succeeds := by
  intro workspace
  obtain ⟨value, succeeded⟩ := succeeds workspace
  rw [run_bind]
  cases run : first.run.run workspace with
  | mk result between =>
      rw [run] at succeeded
      dsimp only at succeeded
      subst succeeded
      exact othersSucceed value between

end Rules

/-! ### Primitive steps -/

theorem succeeds_pure (value : α) : (pure value : Action α).Succeeds :=
  fun _ => ⟨value, rfl⟩

theorem succeeds_modifyGet (change : Workspace → α × Workspace) :
    (modifyGet change : Action α).Succeeds :=
  fun _ => ⟨_, rfl⟩

theorem succeeds_modify (change : Workspace → Workspace) :
    (modify change : Action Unit).Succeeds :=
  fun _ => ⟨_, rfl⟩

theorem succeeds_get : (get : Action Workspace).Succeeds :=
  fun _ => ⟨_, rfl⟩

theorem reads_pure (value : α) : (pure value : Action α).Reads :=
  fun workspace => .refl workspace

theorem reads_get : (get : Action Workspace).Reads :=
  fun workspace => .refl workspace

theorem reads_report (record : LogRecord) : (report record).Reads :=
  fun workspace => ⟨rfl, .refl workspace.store, fun _ memory found => ⟨memory, found, .refl memory⟩⟩

theorem reads_place (draft : Draft) : (place draft).Reads :=
  fun workspace => ⟨rfl, Store.extends_place workspace.store draft,
    fun _ memory found => ⟨memory, found, .refl memory⟩⟩

theorem reads_consult (calculation : Store → Except Failure α) : (consult calculation).Reads := by
  apply reads_get.bind
  intro workspace
  cases calculation workspace.store with
  | ok value => exact reads_pure value
  | error failure => exact fun workspace => .refl workspace

theorem reads_reportIn (number : Nat) (level : LogLevel) (about preposition : String) :
    (reportIn number level about preposition).Reads :=
  reads_get.bind fun _ => reads_report _

theorem succeeds_placeBag (bag : Draft) : (placeBag bag).Succeeds := by
  apply Succeeds.bind (succeeds_modifyGet _)
  intro value
  apply Succeeds.bind succeeds_get
  intro workspace
  split
  · exact succeeds_modifyGet _
  · exact succeeds_pure value

theorem succeeds_receive (reply : Reply) : (receive reply).Succeeds := by
  cases reply with
  | value draft => exact (succeeds_modifyGet _).bind fun _ => succeeds_pure _
  | saved result => exact (succeeds_modifyGet _).bind fun _ => succeeds_pure _
  | record record =>
      apply (succeeds_modifyGet _).bind
      intro identity
      exact (succeeds_placeBag record.data).bind fun _ => succeeds_pure _

/-! ### Asking an engine -/

theorem run_converse (engine : Nat) (act : Store → Engine → Outcome × Engine)
    (workspace : Workspace) :
    (converse engine act).run.run workspace =
      match workspace.engines[engine]? with
      | none => (.ok .nothing, workspace)
      | some state =>
          ((act workspace.store state).1.result,
            { workspace with
              engines := workspace.engines.setIfInBounds engine (act workspace.store state).2
              log := workspace.log ++ (act workspace.store state).1.log }) := by
  rw [converse, run_bind, run_get]
  dsimp only
  cases workspace.engines[engine]? with
  | none => rfl
  | some state =>
      dsimp only
      rw [run_bind, run_set]
      cases (act workspace.store state).1.result <;> rfl

theorem failsSafely_converse {engine : Nat} {act : Store → Engine → Outcome × Engine}
    (kept : ∀ store memory failure, (act store (.memory memory)).1.result = .error failure →
      ∃ kept, (act store (.memory memory)).2 = .memory kept ∧ memory.SameRecords kept) :
    (converse engine act).FailsSafely := by
  intro workspace failure failed
  rw [run_converse] at failed ⊢
  cases found : workspace.engines[engine]? with
  | none => exact .refl workspace
  | some state =>
      rw [found] at failed
      apply Workspace.spared_of_engine found
      rintro memory rfl
      exact kept workspace.store memory failure failed

theorem failsSafely_request [Machine] (engine : Nat) (asked : Request Value) :
    (request engine asked).FailsSafely := by
  apply failsSafely_converse
  intro store memory failure failed
  exact ⟨_, rfl, Memory.sameRecords_of_failed memory _ failed⟩

theorem failsSafely_requestOf [Machine] (number : Nat) (make : Address → Request Value) :
    (requestOf number make).FailsSafely :=
  reads_get.bind_failsSafely fun _ => failsSafely_request _ _

/-- A request whose reply does not matter. -/
theorem failsSafely_requestOnly [Machine] (number : Nat) (make : Address → Request Value) :
    (requestOf number make >>= fun _ => pure () : Action Unit).FailsSafely :=
  (failsSafely_requestOf number make).bind_succeeds fun _ => succeeds_pure _

theorem reads_request_getExpiration [Machine] (engine : Nat) (collection : Address)
    (identifier : String) :
    (request engine (.getExpiration collection identifier)).Reads := by
  intro workspace
  rw [request, run_converse]
  cases found : workspace.engines[engine]? with
  | none => exact .refl workspace
  | some state =>
      apply Workspace.spared_of_engine found
      rintro memory rfl
      exact ⟨memory, rfl, .refl memory⟩

/-! ### The methods of collections and engines -/

section Methods

variable (number : Nat)

theorem failsSafely_save [Machine] (document : Nat) (control : Option ConcurrencyControl) :
    (save number document control).FailsSafely := by
  apply reads_get.bind_failsSafely
  intro workspace
  apply (reads_reportIn _ _ _ _).bind_failsSafely
  intro _
  apply (failsSafely_requestOf _ _).bind_succeeds
  intro reply
  cases reply with
  | saved result => exact succeeds_modify _
  | _ => exact succeeds_pure ()

theorem failsSafely_load [Machine] (identifier : String) :
    (load number identifier).FailsSafely := by
  apply (failsSafely_requestOf _ _).bind_succeeds
  intro reply
  cases reply with
  | record record =>
      apply (succeeds_placeBag _).bind
      intro bag
      exact (succeeds_modifyGet _).bind fun _ => succeeds_pure _
  | _ => exact succeeds_pure none

theorem failsSafely_delete [Machine] (document : Nat) (control : Option ConcurrencyControl) :
    (delete number document control).FailsSafely := by
  apply reads_get.bind_failsSafely
  intro workspace
  apply (reads_reportIn _ _ _ _).bind_failsSafely
  intro _
  exact failsSafely_requestOnly number _

theorem failsSafely_purgeIdentifier [Machine] (identifier : String) :
    (purgeIdentifier number identifier).FailsSafely := by
  apply (reads_reportIn _ _ _ _).bind_failsSafely
  intro _
  exact failsSafely_requestOnly number _

theorem failsSafely_createIndex [Machine] (name : String) (index : Index) :
    (createIndex number name index).FailsSafely := by
  apply (reads_reportIn _ _ _ _).bind_failsSafely
  intro _
  apply (reads_consult _).bind_failsSafely
  intro definition
  apply (reads_place _).bind_failsSafely
  intro value
  exact failsSafely_requestOnly number _

theorem failsSafely_deleteIndex [Machine] (name : String) :
    (deleteIndex number name).FailsSafely := by
  apply (reads_reportIn _ _ _ _).bind_failsSafely
  intro _
  exact failsSafely_requestOnly number _

theorem failsSafely_setExpiration [Machine] (identifier : String)
    (moment : Option Calendar.Moment) :
    (setExpiration number identifier moment).FailsSafely := by
  apply (reads_consult _).bind_failsSafely
  intro timestamp
  exact failsSafely_requestOnly number _

theorem failsSafely_expiration [Machine] (identifier : String) :
    (expiration number identifier).FailsSafely := by
  apply Reads.bind_failsSafely
  · exact reads_get.bind fun _ => reads_request_getExpiration _ _ _
  · intro reply
    split
    · exact (reads_consult _).failsSafely
    · exact (reads_pure none).failsSafely

theorem failsSafely_giveNothing {action : Action Unit} (failsSafely : action.FailsSafely) :
    (giveNothing action).FailsSafely :=
  failsSafely.bind_succeeds fun _ => succeeds_pure _

variable [Machine]

theorem failsSafely_giveLoaded (identifier : String) :
    (load number identifier >>= giveLoaded).FailsSafely := by
  apply (failsSafely_load number identifier).bind_succeeds
  intro loaded
  cases loaded <;> exact succeeds_pure _

/-- The reply to a request of a collection, given as an object. -/
theorem failsSafely_received (make : Address → Request Value) (give : Object → Option Object) :
    ((requestOf number make >>= receive) >>= fun object => pure (give object) :
      Action (Option Object)).FailsSafely := by
  have receives := (failsSafely_requestOf number make).bind_succeeds succeeds_receive
  exact receives.bind_succeeds fun _ => succeeds_pure _

/-- A method of a collection that fails spares documents, cells and records. -/
theorem failsSafely_callCollection (method : String) (arguments : List Object) :
    (callCollection number method arguments).FailsSafely := by
  have unknown : Action.unknown.FailsSafely := (succeeds_pure none).failsSafely
  unfold callCollection
  split
  · split
    · exact failsSafely_giveNothing (failsSafely_save number _ _)
    · exact unknown
  · exact failsSafely_giveLoaded number _
  · exact failsSafely_giveLoaded number _
  · split
    · exact failsSafely_giveNothing (failsSafely_delete number _ _)
    · exact unknown
  · apply failsSafely_giveNothing
    exact reads_get.bind_failsSafely fun _ => failsSafely_purgeIdentifier number _
  · exact failsSafely_giveNothing (failsSafely_purgeIdentifier number _)
  · exact failsSafely_received number _ some
  · exact failsSafely_giveNothing (failsSafely_createIndex number _ _)
  · exact failsSafely_giveNothing (failsSafely_deleteIndex number _)
  · exact failsSafely_received number _ some
  · exact failsSafely_received number _ some
  · split
    · exact failsSafely_giveNothing (failsSafely_setExpiration number _ _)
    · exact unknown
  · exact (failsSafely_expiration number _).bind_succeeds fun _ => succeeds_pure _
  · exact (reads_get.bind fun _ => reads_pure _).failsSafely
  · exact (reads_get.bind fun _ => reads_pure _).failsSafely
  · exact unknown

/-- A method of an engine that fails spares documents, cells and records. -/
theorem failsSafely_callEngine (method : String) (arguments : List Object) :
    (callEngine number method arguments).FailsSafely := by
  have unknown : Action.unknown.FailsSafely := (succeeds_pure none).failsSafely
  apply reads_get.bind_failsSafely
  intro workspace
  split
  · split
    · apply FailsSafely.bind_succeeds
      · apply failsSafely_converse
        intro store memory failure failed
        cases failed
      · intro reply
        exact (succeeds_receive reply).bind fun _ => succeeds_pure _
    · exact unknown
  · split
    · apply (failsSafely_request number _).bind_succeeds
      intro reply
      exact (succeeds_receive reply).bind fun _ => succeeds_pure _
    · exact unknown

end Methods

/-! ### Saving through any engine -/

/-- A document saved through an engine that may do anything it likes when it is asked. -/
def saveThrough (ask : Nat → Request Value → Action Reply) (number document : Nat)
    (control : Option ConcurrencyControl) : Action Unit := do
  let source := (← get).document document
  reportIn number .debug ("Saving document " ++ source.identifier) "in"
  let collection := (← get).collection number
  let reply ← ask collection.engine
    (.save collection.address source.identifier (.cell source.bag) control source.sequence)
  match reply with
  | .saved result =>
      changeDocument document fun current =>
        { current with
          identifier := result.identifier
          revision := result.revision
          sequence := result.sequence
          collection := some number }
  | _ => return ()

theorem save_eq_saveThrough [Machine] : save = saveThrough request := rfl

/-- The documents and the cells of a program are none of an engine's business. -/
def LeavesCallers (ask : Nat → Request Value → Action Reply) : Prop :=
  ∀ (engine : Nat) (asked : Request Value) (workspace : Workspace),
    ((ask engine asked).run.run workspace).2.documents = workspace.documents
      ∧ ((ask engine asked).run.run workspace).2.store = workspace.store

theorem leavesCallers_request [Machine] : LeavesCallers request := by
  intro engine asked workspace
  rw [request, run_converse]
  cases workspace.engines[engine]? with
  | none => exact ⟨rfl, rfl⟩
  | some state => exact ⟨rfl, rfl⟩

/-- A save fails only as its engine fails, and nothing happens after that. -/
theorem run_ask_of_saveThrough_failed {ask : Nat → Request Value → Action Reply}
    {number document : Nat} {control : Option ConcurrencyControl} {workspace after : Workspace}
    {failure : Failure}
    (failed : (saveThrough ask number document control).run.run workspace = (.error failure, after)) :
    ∃ log, (ask (workspace.collection number).engine
        (.save (workspace.collection number).address (workspace.document document).identifier
          (.cell (workspace.document document).bag) control
          (workspace.document document).sequence)).run.run { workspace with log } =
      (.error failure, after) := by
  obtain ⟨log, reporting⟩ := run_reportIn workspace number .debug
    ("Saving document " ++ (workspace.document document).identifier) "in"
  refine ⟨log, ?_⟩
  rw [saveThrough, run_bind, run_get] at failed
  dsimp only at failed
  rw [run_bind, reporting] at failed
  dsimp only at failed
  rw [run_bind, run_get] at failed
  dsimp only at failed
  rw [run_bind] at failed
  split at failed
  · next reply between asked => cases reply <;> cases failed
  · next cause between asked =>
      cases failed
      exact asked

/-- A request that fails changes the contents of an engine at most. A method of a collection or
of an engine that fails spares the documents, the cells and the records of every engine. Saving
through any engine fails with the engine's own failure and leaves the documents and their bags
as they were. -/
theorem failed_call_leaves_no_trace [Machine] :
    (∀ (memory : Memory) (asked : Request Tree) (failure : Failure),
        (memory.step asked).1.result = .error failure → memory.SameRecords (memory.step asked).2)
      ∧ (∀ number method arguments, (callCollection number method arguments).FailsSafely
        ∧ (callEngine number method arguments).FailsSafely)
      ∧ (save = saveThrough request ∧ LeavesCallers request)
      ∧ ∀ ask, LeavesCallers ask →
        ∀ number document control workspace failure after,
          (saveThrough ask number document control).run.run workspace = (.error failure, after) →
            (∃ log, (ask (workspace.collection number).engine
                (.save (workspace.collection number).address
                  (workspace.document document).identifier
                  (.cell (workspace.document document).bag) control
                  (workspace.document document).sequence)).run.run { workspace with log } =
                (.error failure, after))
              ∧ after.documents = workspace.documents ∧ after.store = workspace.store := by
  refine ⟨?_, ?_, ⟨save_eq_saveThrough, leavesCallers_request⟩, ?_⟩
  · intro memory asked failure failed
    exact Memory.sameRecords_of_failed memory asked failed
  · intro number method arguments
    exact ⟨failsSafely_callCollection number method arguments,
      failsSafely_callEngine number method arguments⟩
  · intro ask leaves number document control workspace failure after failed
    obtain ⟨log, asking⟩ := run_ask_of_saveThrough_failed failed
    have left := leaves (workspace.collection number).engine
      (.save (workspace.collection number).address (workspace.document document).identifier
        (.cell (workspace.document document).bag) control (workspace.document document).sequence)
      { workspace with log }
    rw [asking] at left
    exact ⟨⟨log, asking⟩, left⟩

/-- A program with a document that carries an outdated sequence. -/
def outdatedWorkspace : Workspace :=
  { Workspace.start [] with
    store := ⟨#[.object [("title", .text "Holidays")]]⟩
    documents := #[⟨true, "reader", 7, none, 0, none⟩]
    collections := #[⟨0, Memory.notes⟩]
    engines := #[.memory Memory.readerMemory] }

theorem outdated_save_leaves_no_trace :
    ((callCollection 0 "save" [.document 0, .value (.integer 1)]).run.run outdatedWorkspace).1 =
        .error (.database (.conflict "reader"))
      ∧ outdatedWorkspace.Spared
        ((callCollection 0 "save" [.document 0, .value (.integer 1)]).run.run outdatedWorkspace).2 := by
  have source : outdatedWorkspace.document 0 = ⟨true, "reader", 7, none, 0, none⟩ := rfl
  have conflict : (Memory.empty.afterRun
      [.save Memory.notes "reader" Memory.readerBag.toTree none 0]).hasConflict Memory.notes
        (outdatedWorkspace.document 0).identifier (some .failOnConflict)
        (outdatedWorkspace.document 0).sequence = true := by
    have found := Memory.document?_readerMemory
    rw [Memory.readerMemory] at found
    rw [source, Memory.hasConflict, found]
    rfl
  have failed : ((callCollection 0 "save" [.document 0, .value (.integer 1)]).run.run
      outdatedWorkspace).1 = .error (.database (.conflict "reader")) := by
    have keeps : outdatedWorkspace.Keeps 0
        [.save Memory.notes "reader" Memory.readerBag.toTree none 0] := rfl
    have linked : outdatedWorkspace.collection 0 = ⟨0, Memory.notes⟩ := rfl
    obtain ⟨after, saving, _⟩ := run_save_of_conflict keeps linked conflict
    have calling : callCollection 0 "save" [.document 0, .value (.integer 1)] =
      giveNothing (save 0 0 (some .failOnConflict)) := rfl
    rw [calling, giveNothing, run_bind, saving, source]
  exact ⟨failed, (failed_call_leaves_no_trace.2.1 0 "save" _).1 _ _ failed⟩

end Action

end DocumentStore
