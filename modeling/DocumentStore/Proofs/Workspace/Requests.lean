import DocumentStore.Proofs.Engine.Refinement
import DocumentStore.Workspace.Collections

/-!
Contract: what the actions of a collection do to a workspace whose engine keeps everything in
memory.

Owns: the link between an engine and the requests that were put to it, and how a save, a
deletion and a loading go, given the answer of the engine.

Does not own: the answers.

An action puts one request to the engine. What it changes besides is the log, the document it
was given or made, and the containers it allocates.
-/

set_option autoImplicit false

namespace DocumentStore

namespace Action

/-! ### Actions in sequence -/

section Sequence

variable {α β : Type} {workspace after : Workspace}

theorem run_get : (get : Action Workspace).run.run workspace = (.ok workspace, workspace) := rfl

theorem run_set : (set after : Action PUnit).run.run workspace = (.ok ⟨⟩, after) := rfl

theorem run_bind (first : Action α) (others : α → Action β) :
    (first >>= others).run.run workspace =
      match first.run.run workspace with
      | (.ok value, between) => (others value).run.run between
      | (.error failure, between) => (.error failure, between) := by
  show (match first.run.run workspace with
    | (result, between) => (ExceptT.bindCont others result).run between) = _
  rcases first.run.run workspace with ⟨_ | _, between⟩ <;> rfl

/-- A calculation that succeeds changes nothing. -/
theorem run_consult {calculation : Store → Except Failure α} {result : α}
    (succeeds : calculation workspace.store = .ok result) :
    (consult calculation).run.run workspace = (.ok result, workspace) := by
  rw [consult, run_bind, run_get]
  dsimp only
  rw [succeeds]
  rfl

theorem run_consult_of_error {calculation : Store → Except Failure α} {failure : Failure}
    (fails : calculation workspace.store = .error failure) :
    (consult calculation).run.run workspace = (.error failure, workspace) := by
  rw [consult, run_bind, run_get]
  dsimp only
  rw [fails]
  rfl

/-- A report changes the log only. -/
theorem run_reportIn (workspace : Workspace) (number : Nat) (level : LogLevel)
    (about preposition : String) :
    ∃ log, (reportIn number level about preposition).run.run workspace =
      (.ok (), { workspace with log }) :=
  ⟨_, rfl⟩

end Sequence

end Action

/-! ### Workspaces with an engine in memory -/

namespace Workspace

variable {workspace : Workspace} {engine : Nat} {requests : List (Request Tree)}

/-- An engine keeps its documents in memory, and these are the requests that were put to it since
its start. -/
def Keeps [Machine] (workspace : Workspace) (engine : Nat) (requests : List (Request Tree)) :
    Prop :=
  workspace.engines[engine]? = some (.memory (Memory.empty.afterRun requests))

/-- A workspace after an engine answered. -/
def answered (workspace : Workspace) (engine : Nat) (memory : Memory) (log : Array LogRecord) :
    Workspace :=
  { workspace with engines := workspace.engines.setIfInBounds engine (.memory memory), log }

theorem Keeps.answered [Machine] (keeps : workspace.Keeps engine requests) (request : Request Tree)
    (log : Array LogRecord) :
    (workspace.answered engine ((Memory.empty.afterRun requests).step request).2 log).Keeps engine
      (requests ++ [request]) := by
  have bound : engine < workspace.engines.size := (Array.getElem?_eq_some_iff.1 keeps).1
  rw [Keeps, Memory.afterRun_append, Memory.afterRun_cons, Memory.afterRun_nil]
  exact Array.getElem?_setIfInBounds_self_of_lt bound

/-- The request that saving a document puts to the engine. -/
def saveRequest (workspace : Workspace) (address : Address) (document : Nat)
    (control : Option ConcurrencyControl) : Request Tree :=
  .save address (workspace.document document).identifier
    (workspace.store.unfold (.cell (workspace.document document).bag)) control
    (workspace.document document).sequence

end Workspace

/-! ### Requests -/

namespace Action

section Requests

variable [Machine] {workspace : Workspace} {engine number : Nat} {address : Address}
  {requests : List (Request Tree)} (keeps : workspace.Keeps engine requests)
  (linked : workspace.collection number = ⟨engine, address⟩)

include keeps linked

theorem run_requestOf (make : Address → Request Value) :
    ∃ log, (requestOf number make).run.run workspace =
      (((Memory.empty.afterRun requests).step ((make address).map workspace.store.unfold)).1.result,
        workspace.answered engine
          ((Memory.empty.afterRun requests).step ((make address).map workspace.store.unfold)).2 log) := by
  refine ⟨workspace.log ++
    ((Memory.empty.afterRun requests).step ((make address).map workspace.store.unfold)).1.log, ?_⟩
  rw [Workspace.Keeps] at keeps
  rw [requestOf, run_bind, run_get]
  simp only [Action.request, converse, run_bind, run_get, linked, keeps, run_set,
    DocumentEngine.perform]
  cases (Memory.empty.afterRun requests).step ((make address).map workspace.store.unfold) with
  | mk outcome after =>
      obtain ⟨result, log⟩ := outcome
      cases result <;> rfl

/-- A save fails as the engine fails, or it writes into the document what the engine assigned. -/
theorem run_save (document : Nat) (control : Option ConcurrencyControl) :
    ∃ log, (save number document control).run.run workspace =
      match (Memory.empty.afterRun requests).step (workspace.saveRequest address document control) with
      | (⟨.error failure, _⟩, memory) => (.error failure, workspace.answered engine memory log)
      | (⟨.ok (.saved result), _⟩, memory) =>
          (.ok (), { workspace.answered engine memory log with
            documents := workspace.documents.setIfInBounds document
              { workspace.document document with
                identifier := result.identifier
                revision := result.revision
                sequence := result.sequence
                collection := some number } })
      | (⟨.ok _, _⟩, memory) => (.ok (), workspace.answered engine memory log) := by
  obtain ⟨reported, reporting⟩ := run_reportIn workspace number .debug
    ("Saving document " ++ (workspace.document document).identifier) "in"
  have keepsReported : ({ workspace with log := reported } : Workspace).Keeps engine requests := keeps
  obtain ⟨log, requesting⟩ := run_requestOf keepsReported linked fun address =>
    .save address (workspace.document document).identifier
      (.cell (workspace.document document).bag) control (workspace.document document).sequence
  refine ⟨log, ?_⟩
  rw [save, run_bind, run_get]
  simp only [run_bind, reporting, requesting]
  rw [Workspace.saveRequest, Request.map]
  cases (Memory.empty.afterRun requests).step (.save address (workspace.document document).identifier
      (workspace.store.unfold (.cell (workspace.document document).bag)) control
      (workspace.document document).sequence) with
  | mk outcome memory =>
      obtain ⟨result, _⟩ := outcome
      cases result with
      | error failure => rfl
      | ok reply => cases reply <;> rfl

end Requests

/-! ### Loading -/

section Loading

variable {workspace : Workspace}

/-- Placing a bag changes the store only. -/
theorem run_placeBag (workspace : Workspace) (bag : Draft) :
    ∃ value after, (placeBag bag).run.run workspace = (.ok value, after)
      ∧ after.engines = workspace.engines ∧ after.documents = workspace.documents := by
  obtain ⟨value, store, placing⟩ : ∃ value store,
      (place bag).run.run workspace = (.ok value, { workspace with store }) := ⟨_, _, rfl⟩
  rw [placeBag, run_bind, placing]
  dsimp only
  rw [run_bind, run_get]
  dsimp only
  split <;> exact ⟨_, _, rfl, rfl, rfl⟩

/-- A new document is given the name that is asked for, unless this name is empty. -/
theorem run_newDocument (workspace : Workspace) {identifier : String} (named : identifier ≠ "")
    (editable : Bool) (sequence : Int) (revision : Option String) (bag : Option Ref)
    (collection : Option Nat) :
    ∃ place after, (newDocument editable (some identifier) (some sequence) revision bag
        collection).run.run workspace = (.ok workspace.documents.size, after)
      ∧ after.engines = workspace.engines
      ∧ after.documents = workspace.documents.push
        ⟨editable, identifier, sequence, revision, place, collection⟩ := by
  have running : ∀ change : Workspace → Nat × Workspace,
      (modifyGet change : Action Nat).run.run workspace =
        (.ok (change workspace).1, (change workspace).2) := fun _ => rfl
  rw [newDocument, running]
  cases bag
  all_goals
    dsimp only
    split
    · next empty => exact absurd (Option.some.inj empty) named
    · next given =>
        rw [Option.some.inj given]
        exact ⟨_, _, rfl, rfl, rfl⟩
    · next given => cases given

/-- A document that is present is loaded under its name, with the sequence of its version. -/
theorem run_load [Machine] {engine number : Nat} {address : Address}
    {requests : List (Request Tree)} (keeps : workspace.Keeps engine requests)
    (linked : workspace.collection number = ⟨engine, address⟩) {identifier : String}
    (named : identifier ≠ "") {entry : Entry}
    (known : Ledger.ofHistory (Memory.empty.history requests) (address, identifier) = some entry) :
    ∃ after, (load number identifier).run.run workspace = (.ok (some workspace.documents.size), after)
      ∧ after.Keeps engine (requests ++ [.getDocument address identifier])
      ∧ ∃ revision bag collection, after.documents = workspace.documents.push
        ⟨false, identifier, entry.result.sequence, revision, bag, collection⟩ := by
  obtain ⟨stored, found, version⟩ := (Memory.represents_afterRun requests).exists_version known
  obtain ⟨log, requesting⟩ := run_requestOf keeps linked fun address => .getDocument address identifier
  have kept := keeps.answered (.getDocument address identifier) log
  simp only [Request.map, Memory.step, found] at requesting kept
  obtain ⟨value, between, placing, sameEngines, sameDocuments⟩ := run_placeBag
    (workspace.answered engine (Memory.empty.afterRun requests) log) (Memory.record stored).data
  have sequence : entry.result.sequence = stored.sequence := by rw [version.result_eq, Memory.resultOf]
  -- whichever container the bag is in
  have made : ∀ bag : Option Ref, ∃ after,
      (newDocument false (some stored.identifier) (some stored.sequence) (some stored.revision) bag
          (some number) >>= fun loaded => pure (some loaded)).run.run between =
        (.ok (some workspace.documents.size), after)
      ∧ after.Keeps engine (requests ++ [.getDocument address identifier])
      ∧ ∃ revision bag collection, after.documents = workspace.documents.push
        ⟨false, identifier, entry.result.sequence, revision, bag, collection⟩ := by
    intro bag
    obtain ⟨place, after, making, lastEngines, lastDocuments⟩ := run_newDocument between named false
      stored.sequence (some stored.revision) bag (some number)
    rw [version.identifier_eq, run_bind, making, sequence]
    refine ⟨after, ?_, ?_, some stored.revision, place, some number, ?_⟩
    · rw [sameDocuments]
      rfl
    · rw [Workspace.Keeps, lastEngines, sameEngines]
      exact kept
    · rw [lastDocuments, sameDocuments]
      rfl
  rw [load, run_bind, requesting]
  dsimp only [Outcome.answer]
  rw [run_bind, placing]
  exact made _

/-- An editable document carries the name and the sequence of its source. -/
theorem run_editDocument {document : Nat} (named : (workspace.document document).identifier ≠ "") :
    ∃ after, (editDocument document).run.run workspace = (.ok workspace.documents.size, after)
      ∧ after.engines = workspace.engines
      ∧ ∃ revision bag collection, after.documents = workspace.documents.push
        ⟨true, (workspace.document document).identifier, (workspace.document document).sequence,
          revision, bag, collection⟩ := by
  obtain ⟨bag, after, making, engines, documents⟩ := run_newDocument workspace named true
    (workspace.document document).sequence (workspace.document document).revision
    (some (workspace.document document).bag) (workspace.collectionOf (workspace.document document))
  rw [editDocument, run_bind, run_get]
  exact ⟨after, making, engines, _, bag, _, documents⟩

end Loading

end Action

end DocumentStore
