import DocumentStore.Proofs.Workspace.Conflicts

/-!
Contract: a loaded document identifies the record it came from.

Owns: what loading and editing keep of a document's version, and what deleting, purging and
saving a document do to the records of its engine.

Does not own: what is loaded of the bag.

A document carries the name, the sequence and the revision of a record. A document without a name
is given one when it is made, so a record without a name is loaded under another name than its
own, and nothing that is done with the loaded document reaches the record.
-/

set_option autoImplicit false

namespace DocumentStore

/-- A document has the sequence and the revision of another one, and its name unless this is
empty. -/
structure Document.SameVersion (document source : Document) : Prop where
  sequence_eq : document.sequence = source.sequence
  revision_eq : document.revision = source.revision
  identifier_eq : source.identifier ≠ "" → document.identifier = source.identifier

theorem Document.SameVersion.trans {last between first : Document}
    (later : last.SameVersion between) (earlier : between.SameVersion first) :
    last.SameVersion first where
  sequence_eq := later.sequence_eq.trans earlier.sequence_eq
  revision_eq := later.revision_eq.trans earlier.revision_eq
  identifier_eq := fun named => by
    have same := earlier.identifier_eq named
    rw [later.identifier_eq (same ▸ named), same]

theorem Document.SameVersion.carries {workspace : Workspace} {document : Nat} {source : Document}
    (same : (workspace.document document).SameVersion source) (named : source.identifier ≠ "")
    (present : document < workspace.documents.size) :
    workspace.Carries document source.identifier source.sequence :=
  ⟨present, same.identifier_eq named, same.sequence_eq⟩

namespace Memory

variable [Machine]

/-- The record that an engine keeps of a document after some requests. -/
def recordAfter (requests : List (Request Tree)) (key : Address × String) :
    Option StoredDocument :=
  (empty.afterRun requests).document? key.1 key.2

section Records

variable {requests : List (Request Tree)} {collection : Address} {identifier : String}

theorem recordAfter_append_singleton (requests : List (Request Tree)) (request : Request Tree)
    (key : Address × String) :
    recordAfter (requests ++ [request]) key =
      ((empty.afterRun requests).step request).2.document? key.1 key.2 := by
  rw [recordAfter, afterRun_append, afterRun_cons, afterRun_nil]

/-- A request that makes the engine forget a document removes one record. -/
theorem recordAfter_of_forget {request : Request Tree}
    (forgets : ((empty.afterRun requests).step request).2 =
      (empty.afterRun requests).forget collection identifier) (key : Address × String) :
    recordAfter (requests ++ [request]) key =
      if key = (collection, identifier) then none else recordAfter requests key := by
  have distinct := (represents_afterRun requests).documentsDistinct
  rw [recordAfter_append_singleton, forgets, document?, forget, Table.value?_remove distinct]
  by_cases same : key = (collection, identifier)
  · rw [if_pos same.symm, if_pos same]
  · rw [if_neg (Ne.symm same), if_neg same]
    rfl

/-- A save that is accepted replaces one record by its next version. -/
theorem recordAfter_of_save {data : Tree} {form : Json} {control : Option ConcurrencyControl}
    {sequence : Int} (storable : data.storedForm = .ok form)
    (free : (empty.afterRun requests).hasConflict collection identifier control sequence = false)
    (key : Address × String) :
    recordAfter (requests ++ [.save collection identifier data control sequence]) key =
      if key = (collection, identifier) then
        some ((empty.afterRun requests).nextVersion collection identifier form)
      else recordAfter requests key := by
  obtain ⟨contents, saving⟩ := save_of_storedForm_ok free storable
  rw [recordAfter_append_singleton, step, saving]
  show Table.value? (Table.put _ _ _) key = _
  rw [Table.value?_put]
  by_cases same : key = (collection, identifier)
  · rw [if_pos same.symm, if_pos same]
  · rw [if_neg (Ne.symm same), if_neg same]
    rfl

end Records

end Memory

namespace Action

/-- The engine answered one more request, and it keeps one record differently and all others as
they were. -/
def Replaces [Machine] (engine : Nat) (requests : List (Request Tree)) (key : Address × String)
    (record : Option StoredDocument) (after : Workspace) : Prop :=
  ∃ request, after.Keeps engine (requests ++ [request])
    ∧ ∀ other, Memory.recordAfter (requests ++ [request]) other =
      if other = key then record else Memory.recordAfter requests other

/-- Deleting, purging and saving a document all succeed, whatever the concurrency control, and act
on one record: it is removed, or its next version takes its place. -/
structure ActsOn [Machine] (engine : Nat) (requests : List (Request Tree)) (key : Address × String)
    (workspace : Workspace) (number document : Nat) : Prop where
  deletes : ∀ control, ∃ after, (delete number document control).run.run workspace = (.ok (), after)
    ∧ Replaces engine requests key none after
  purges : ∃ after, (purge number document).run.run workspace = (.ok (), after)
    ∧ Replaces engine requests key none after
  saves : ∀ control form,
    (workspace.store.unfold (.cell (workspace.document document).bag)).storedForm = .ok form →
      ∃ after record next, (save number document control).run.run workspace = (.ok (), after)
        ∧ Memory.recordAfter requests key = some record
        ∧ next.generation = record.generation + 1 ∧ next.data = form
        ∧ Replaces engine requests key (some next) after

/-! ### Versions of new documents -/

section Versions

variable {workspace : Workspace}

theorem run_newDocument_version (workspace : Workspace) (editable : Bool) (identifier : String)
    (sequence : Int) (revision : Option String) (bag : Option Ref) (collection : Option Nat) :
    ∃ made after, (newDocument editable (some identifier) (some sequence) revision bag
        collection).run.run workspace = (.ok workspace.documents.size, after)
      ∧ after.engines = workspace.engines ∧ after.collections = workspace.collections
      ∧ after.documents = workspace.documents.push made
      ∧ made.sequence = sequence ∧ made.revision = revision
      ∧ (identifier ≠ "" → made.identifier = identifier) := by
  have running : ∀ change : Workspace → Nat × Workspace,
      (modifyGet change : Action Nat).run.run workspace =
        (.ok (change workspace).1, (change workspace).2) := fun _ => rfl
  rw [newDocument, running]
  cases bag
  all_goals
    dsimp only
    split
    · next empty => exact ⟨_, _, rfl, rfl, rfl, rfl, rfl, rfl, fun named =>
        absurd (Option.some.inj empty) named⟩
    · next given => exact ⟨_, _, rfl, rfl, rfl, rfl, rfl, rfl, fun _ =>
        (Option.some.inj given).symm⟩
    · next given => cases given

theorem run_editDocument_version (workspace : Workspace) (document : Nat) :
    ∃ after, (editDocument document).run.run workspace = (.ok workspace.documents.size, after)
      ∧ after.engines = workspace.engines ∧ after.collections = workspace.collections
      ∧ ∃ made, after.documents = workspace.documents.push made
        ∧ made.SameVersion (workspace.document document) := by
  obtain ⟨made, after, making, engines, collections, documents, sequence, revision, named⟩ :=
    run_newDocument_version workspace true (workspace.document document).identifier
      (workspace.document document).sequence (workspace.document document).revision
      (some (workspace.document document).bag)
      (workspace.collectionOf (workspace.document document))
  rw [editDocument, run_bind, run_get]
  exact ⟨after, making, engines, collections, made, documents, sequence, revision, named⟩

theorem run_placeBag_collections (workspace : Workspace) (bag : Draft) :
    ((placeBag bag).run.run workspace).2.collections = workspace.collections := by
  obtain ⟨value, store, placing⟩ : ∃ value store,
      (place bag).run.run workspace = (.ok value, { workspace with store }) := ⟨_, _, rfl⟩
  rw [placeBag, run_bind, placing]
  dsimp only
  rw [run_bind, run_get]
  dsimp only
  split <;> rfl

end Versions

section Records

variable [Machine] {workspace : Workspace} {engine number : Nat} {address : Address}
  {requests : List (Request Tree)} (keeps : workspace.Keeps engine requests)
  (linked : workspace.collection number = ⟨engine, address⟩)

include keeps linked

/-! ### Saving and loading -/

/-- A document that was saved keeps its name, and has the sequence and the revision that its save
returned. -/
theorem run_save_version {document : Nat} {control : Option ConcurrencyControl} {saved : Workspace}
    (present : document < workspace.documents.size)
    (saving : (save number document control).run.run workspace = (.ok (), saved)) :
    let request := workspace.saveRequest address document control
    saved.Keeps engine (requests ++ [request]) ∧ saved.collections = workspace.collections
      ∧ ∃ entry, Ledger.ofHistory (Memory.empty.history (requests ++ [request]))
          (address, (saved.document document).identifier) = some entry
        ∧ (saved.document document).sequence = entry.result.sequence
        ∧ (saved.document document).revision = entry.result.revision := by
  intro request
  obtain ⟨reply, accepted⟩ := accepted_of_run_save keeps linked saving
  obtain ⟨form, storable⟩ := Memory.exists_storedForm_of_accepted accepted
  have free := Memory.hasConflict_of_accepted accepted
  obtain ⟨contents, answering⟩ := Memory.save_of_storedForm_ok free storable
  obtain ⟨entry, known, _, result⟩ := Memory.exists_entry_of_save requests storable free
  obtain ⟨log, running⟩ := run_save keeps linked document control
  have kept := keeps.answered request log
  simp only [request, Workspace.saveRequest, Memory.step, answering] at running kept
  rw [saving] at running
  cases running
  refine ⟨kept, rfl, entry, ?_⟩
  rw [Workspace.document_set present rfl, result]
  exact ⟨known, rfl, rfl⟩

/-- What is loaded under the name of a record has the record's version. -/
theorem run_load_version {source : Document} {entry : Entry}
    (known : Ledger.ofHistory (Memory.empty.history requests) (address, source.identifier) =
      some entry)
    (sequence : source.sequence = entry.result.sequence)
    (revision : source.revision = entry.result.revision) :
    ∃ after, (load number source.identifier).run.run workspace =
        (.ok (some workspace.documents.size), after)
      ∧ after.Keeps engine (requests ++ [.getDocument address source.identifier])
      ∧ after.collections = workspace.collections
      ∧ ∃ made, after.documents = workspace.documents.push made ∧ made.SameVersion source := by
  obtain ⟨stored, found, version⟩ := (Memory.represents_afterRun requests).exists_version known
  obtain ⟨log, requesting⟩ := run_requestOf keeps linked fun address =>
    .getDocument address source.identifier
  have kept := keeps.answered (.getDocument address source.identifier) log
  simp only [Request.map, Memory.step, found] at requesting kept
  obtain ⟨value, placed, placing, placedEngines, placedDocuments⟩ := run_placeBag
    (workspace.answered engine (Memory.empty.afterRun requests) log) (Memory.record stored).data
  have placedCollections := run_placeBag_collections
    (workspace.answered engine (Memory.empty.afterRun requests) log) (Memory.record stored).data
  rw [placing] at placedCollections
  have sameDocuments : placed.documents = workspace.documents := placedDocuments
  -- whichever container the bag is in
  have loads : ∀ bag : Option Ref, ∃ after,
      (newDocument false (some stored.identifier) (some stored.sequence) (some stored.revision) bag
          (some number) >>= fun loaded => pure (some loaded)).run.run placed =
        (.ok (some workspace.documents.size), after)
      ∧ after.Keeps engine (requests ++ [.getDocument address source.identifier])
      ∧ after.collections = workspace.collections
      ∧ ∃ made, after.documents = workspace.documents.push made ∧ made.SameVersion source := by
    intro bag
    obtain ⟨made, after, making, engines, collections, documents, madeSequence, madeRevision,
      named⟩ := run_newDocument_version placed false stored.identifier stored.sequence
        (some stored.revision) bag (some number)
    rw [sameDocuments] at making documents
    rw [run_bind, making]
    refine ⟨after, rfl, ?_, collections.trans placedCollections, made, documents, ?_, ?_, ?_⟩
    · rw [Workspace.Keeps, engines, placedEngines]
      exact kept
    · rw [madeSequence, sequence, version.result_eq]
      rfl
    · rw [madeRevision, revision, version.result_eq]
      rfl
    · rw [version.identifier_eq] at named
      exact named
  rw [load, run_bind, requesting]
  dsimp only [Outcome.answer]
  rw [run_bind, placing]
  exact loads _

/-- What is loaded under the name of a record has the record's version, and so has what is edited
of it. -/
theorem run_load_edit_version {source : Document} {entry : Entry}
    (known : Ledger.ofHistory (Memory.empty.history requests) (address, source.identifier) =
      some entry)
    (sequence : source.sequence = entry.result.sequence)
    (revision : source.revision = entry.result.revision) :
    ∃ loaded after edited final,
      (load number source.identifier).run.run workspace = (.ok (some loaded), after)
        ∧ (editDocument loaded).run.run after = (.ok edited, final)
        ∧ final.Keeps engine (requests ++ [.getDocument address source.identifier])
        ∧ final.collections = workspace.collections
        ∧ (final.document loaded).SameVersion source
        ∧ (final.document edited).SameVersion source
        ∧ (source.identifier ≠ "" →
          final.Carries loaded source.identifier source.sequence
            ∧ final.Carries edited source.identifier source.sequence) := by
  obtain ⟨after, loading, keepsAfter, collections, loaded, pushed, loadedSame⟩ :=
    run_load_version keeps linked known sequence revision
  obtain ⟨final, editing, engines, collectionsFinal, edited, pushedAgain, editedSame⟩ :=
    run_editDocument_version after workspace.documents.size
  have old : workspace.documents.size < after.documents.size := by
    rw [pushed, Array.size_push]
    exact Nat.lt_succ_self _
  have grown : final.documents.size = after.documents.size + 1 := by
    rw [pushedAgain, Array.size_push]
  have loadedAfter := Workspace.document_push pushed
  have loadedFinal : (final.document workspace.documents.size).SameVersion source := by
    rw [Workspace.document_push_of_lt pushedAgain old, loadedAfter]
    exact loadedSame
  have editedFinal : (final.document after.documents.size).SameVersion source := by
    rw [Workspace.document_push pushedAgain]
    exact editedSame.trans (loadedAfter ▸ loadedSame)
  refine ⟨_, after, _, final, loading, editing, ?_, collectionsFinal.trans collections,
    loadedFinal, editedFinal, fun named => ?_⟩
  · rw [Workspace.Keeps, engines]
    exact keepsAfter
  · exact ⟨loadedFinal.carries named (by omega), editedFinal.carries named (by omega)⟩

/-! ### Acting on a record -/

/-- A request that makes the engine forget a document, put to it after a report, removes the
record of this document alone. -/
theorem run_forgetting {make : Address → Request Value} {identifier : String}
    (forgets : (Memory.empty.afterRun requests).step ((make address).map workspace.store.unfold) =
      (.answer .nothing, (Memory.empty.afterRun requests).forget address identifier))
    (level : LogLevel) (about preposition : String) :
    ∃ after, (do
        reportIn number level about preposition
        let _ ← requestOf number make : Action Unit).run.run workspace = (.ok (), after)
      ∧ Replaces engine requests (address, identifier) none after := by
  obtain ⟨reported, reporting⟩ := run_reportIn workspace number level about preposition
  have keepsReported : ({ workspace with log := reported } : Workspace).Keeps engine requests := keeps
  obtain ⟨log, requesting⟩ := run_requestOf keepsReported linked make
  have kept := keepsReported.answered ((make address).map workspace.store.unfold) log
  rw [forgets] at requesting kept
  refine ⟨_, ?_, _, kept, Memory.recordAfter_of_forget (congrArg Prod.snd forgets)⟩
  rw [run_bind, reporting]
  dsimp only
  rw [run_bind, requesting]
  rfl

/-- A document that carries the name and the sequence of a record acts on this record. -/
theorem actsOn_of_carries {document : Nat} {identifier : String} {stored : StoredDocument}
    (found : Memory.recordAfter requests (address, identifier) = some stored)
    (carries : workspace.Carries document identifier stored.sequence) :
    ActsOn engine requests (address, identifier) workspace number document := by
  obtain ⟨present, rfl, carried⟩ := carries
  rw [Memory.recordAfter] at found
  have noConflict : ∀ control,
      Memory.isConflict stored control (workspace.document document).sequence = false := by
    intro control
    simp [Memory.isConflict, carried]
  constructor
  case deletes =>
    intro control
    rw [delete, run_bind, run_get]
    refine run_forgetting keeps linked ?_ _ _ _
    simp only [Request.map, Memory.step, Memory.delete, found, noConflict]
    rfl
  case purges =>
    rw [purge, run_bind, run_get]
    refine run_forgetting keeps linked ?_ _ _ _
    simp only [Request.map, Memory.step, Memory.purge, found]
    rfl
  case saves =>
    intro control form storable
    have free : (Memory.empty.afterRun requests).hasConflict address
        (workspace.document document).identifier control (workspace.document document).sequence =
          false := by
      rw [Memory.hasConflict, found, Option.any_some, noConflict]
    obtain ⟨after, _, saving, kept, _⟩ := run_save_of_free keeps linked present storable free
    refine ⟨after, stored, _, saving, found, ?_, rfl, _, kept,
      Memory.recordAfter_of_save storable free⟩
    rw [Memory.nextVersion, found]
    rfl

end Records

/-- A loaded document identifies the record it came from. After a save that succeeds, and for as
long as the document is not saved again or removed, it is loaded with the sequence and the
revision that the saved document has, and so is what is edited of it; they have its name as well,
unless it is empty. And a document with this name and this sequence acts on this record and on no
other. -/
theorem loaded_document_identifies_its_record [Machine] {workspace saved : Workspace}
    {engine number : Nat} {address : Address} {requests : List (Request Tree)} {document : Nat}
    {control : Option ConcurrencyControl} (keeps : workspace.Keeps engine requests)
    (linked : workspace.collection number = ⟨engine, address⟩)
    (present : document < workspace.documents.size)
    (saving : (save number document control).run.run workspace = (.ok (), saved)) :
    let source := saved.document document
    let since := requests ++ [workspace.saveRequest address document control]
    saved.Keeps engine since ∧ saved.collections = workspace.collections
      ∧ ∀ more later reader, later.Keeps engine (since ++ more) →
        later.collection reader = ⟨engine, address⟩ →
        (∀ event ∈ (Memory.empty.afterRun since).history more,
          event.LeavesVersion (address, source.identifier)) →
        (∃ loaded after edited final,
          (load reader source.identifier).run.run later = (.ok (some loaded), after)
            ∧ (editDocument loaded).run.run after = (.ok edited, final)
            ∧ final.Keeps engine (since ++ more ++ [.getDocument address source.identifier])
            ∧ final.collections = later.collections
            ∧ (final.document loaded).SameVersion source
            ∧ (final.document edited).SameVersion source
            ∧ (source.identifier ≠ "" →
              final.Carries loaded source.identifier source.sequence
                ∧ final.Carries edited source.identifier source.sequence))
          ∧ ∀ held, later.Carries held source.identifier source.sequence →
            ActsOn engine (since ++ more) (address, source.identifier) later reader held := by
  intro source since
  obtain ⟨kept, collections, entry, known, sequence, revision⟩ :=
    run_save_version keeps linked present saving
  refine ⟨kept, collections, ?_⟩
  intro more later reader keepsLater linkedLater leaves
  -- The record has another entry now, with the sequence and the revision of the first one.
  obtain ⟨still, knownLater, _, same⟩ := Memory.same_version_known leaves known
  rw [← same] at sequence revision
  constructor
  · exact run_load_edit_version keepsLater linkedLater knownLater sequence revision
  · intro held carries
    obtain ⟨stored, found, version⟩ :=
      (Memory.represents_afterRun (since ++ more)).exists_version knownLater
    have current : source.sequence = stored.sequence := by
      rw [sequence, version.result_eq]
      rfl
    exact actsOn_of_carries keepsLater linkedLater found (current ▸ carries)

/-- An empty collection, and a document that is to be saved in it. -/
def desk : Workspace :=
  { Workspace.start [] with
    store := ⟨#[.object []]⟩
    engines := #[.memory .empty]
    collections := #[⟨0, Memory.notes⟩]
    documents := #[⟨true, "trip", 0, none, 0, none⟩] }

theorem trip_identifies_its_record :
    ∃ saved loaded after edited final, (save 0 0 none).run.run desk = (.ok (), saved)
      ∧ (load 0 "trip").run.run saved = (.ok (some loaded), after)
      ∧ (editDocument loaded).run.run after = (.ok edited, final)
      ∧ (final.document edited).SameVersion (saved.document 0)
      ∧ final.Carries loaded "trip" (saved.document 0).sequence
      ∧ ActsOn 0 [desk.saveRequest Memory.notes 0 none] (Memory.notes, "trip") saved 0 0 := by
  have keeps : desk.Keeps 0 [] := rfl
  have linked : desk.collection 0 = ⟨0, Memory.notes⟩ := rfl
  have present : 0 < desk.documents.size := Nat.one_pos
  have unfolded : desk.store.unfold (.cell (desk.document 0).bag) = .object [] := rfl
  obtain ⟨saved, _, saving, _, _, _, carries, _⟩ := @run_save_of_free _ _ _ _ _ _ keeps linked 0 none _
    present (unfolded ▸ Tree.storedForm_object_nil) rfl
  obtain ⟨kept, collections, identifies⟩ :=
    loaded_document_identifies_its_record keeps linked present saving
  have named : (saved.document 0).identifier = "trip" := carries.identifier_eq
  have linkedSaved : saved.collection 0 = ⟨0, Memory.notes⟩ := by
    rw [Workspace.collection, collections]
    rfl
  obtain ⟨⟨loaded, after, edited, final, loading, editing, _, _, _, sameVersion, carried⟩, acts⟩ :=
    identifies [] saved 0 kept linkedSaved fun _ member => nomatch member
  rw [named] at loading carried acts
  exact ⟨saved, loaded, after, edited, final, saving, loading, editing, sameVersion,
    (carried (by decide)).1, acts 0 ⟨carries.present, named, rfl⟩⟩

/-- A document is saved under a name, and loaded under it. -/
def saveAndLoad [Machine] (identifier : String) : Action (String × String) := do
  let number ← newCollection (← newEngine (.memory .empty)) (some "notes") none none
  let document ← newDocument true (some "trip") none none none none
  changeDocument document fun current => { current with identifier }
  save number document none
  match ← load number identifier with
  | some loaded => do
      let workspace ← get
      return ((workspace.document document).identifier, (workspace.document loaded).identifier)
  | none => throw (.database (.notFound identifier))

/-- A document that is saved without a name is loaded under a name that was made up. -/
theorem empty_name_is_not_loaded :
    ((saveAndLoad "").run.run (.start [])).1.toOption =
        some ("", "00000000-0000-4000-8000-000000000000")
      ∧ ((saveAndLoad "trip").run.run (.start [])).1.toOption = some ("trip", "trip") := by
  decide +kernel

end Action

end DocumentStore
