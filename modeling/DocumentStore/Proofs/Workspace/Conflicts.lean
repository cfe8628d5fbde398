import DocumentStore.Proofs.Engine.Sequences
import DocumentStore.Proofs.Engine.Properties
import DocumentStore.Proofs.Workspace.Requests

/-!
Contract: no update is lost among clients that fail on conflict.

Owns: what a document of a client carries, the saves of clients that loaded one version, and
the guarantee that only the first of them goes through.

Does not own: clients that overwrite whatever is stored.

A document carries the sequence it was loaded or last saved with. A save that succeeds writes
the new sequence back, so its client is up to date and all others are not.
-/

set_option autoImplicit false

namespace DocumentStore

namespace Workspace

/-- A document is known under a name and carries a sequence. -/
structure Carries (workspace : Workspace) (document : Nat) (identifier : String) (sequence : Int) :
    Prop where
  present : document < workspace.documents.size
  identifier_eq : (workspace.document document).identifier = identifier
  sequence_eq : (workspace.document document).sequence = sequence

variable {workspace after : Workspace}

theorem document_of_documents_eq (same : after.documents = workspace.documents) (number : Nat) :
    after.document number = workspace.document number := by
  rw [document, document, same]

theorem document_push {added : Document} (pushed : after.documents = workspace.documents.push added) :
    after.document workspace.documents.size = added := by
  rw [document, pushed, Array.getD_eq_getD_getElem?, Array.getElem?_push_size]
  rfl

theorem document_push_of_lt {added : Document}
    (pushed : after.documents = workspace.documents.push added) {number : Nat}
    (old : number < workspace.documents.size) : after.document number = workspace.document number := by
  rw [document, document, pushed, Array.getD_eq_getD_getElem?, Array.getD_eq_getD_getElem?,
    Array.getElem?_push, if_neg (Nat.ne_of_lt old)]

theorem document_set {number : Nat} {changed : Document} (present : number < workspace.documents.size)
    (set : after.documents = workspace.documents.setIfInBounds number changed) :
    after.document number = changed := by
  rw [document, set, Array.getD_eq_getD_getElem?, Array.getElem?_setIfInBounds_self_of_lt present]
  rfl

theorem document_set_of_ne {number other : Nat} {changed : Document} (different : number ≠ other)
    (set : after.documents = workspace.documents.setIfInBounds number changed) :
    after.document other = workspace.document other := by
  rw [document, document, set, Array.getD_eq_getD_getElem?, Array.getD_eq_getD_getElem?,
    Array.getElem?_setIfInBounds_ne different]

namespace Carries

variable {document : Nat} {identifier : String} {sequence : Int}
  (carries : workspace.Carries document identifier sequence)

include carries

theorem of_documents_eq (same : after.documents = workspace.documents) :
    after.Carries document identifier sequence := by
  refine ⟨same ▸ carries.present, ?_, ?_⟩
  · rw [document_of_documents_eq same, carries.identifier_eq]
  · rw [document_of_documents_eq same, carries.sequence_eq]

theorem of_set {number : Nat} {changed : Document} (different : number ≠ document)
    (set : after.documents = workspace.documents.setIfInBounds number changed) :
    after.Carries document identifier sequence := by
  refine ⟨?_, ?_, ?_⟩
  · rw [set, Array.size_setIfInBounds]
    exact carries.present
  · rw [document_set_of_ne different set, carries.identifier_eq]
  · rw [document_set_of_ne different set, carries.sequence_eq]

theorem of_push {added : Document} (pushed : after.documents = workspace.documents.push added) :
    after.Carries document identifier sequence := by
  refine ⟨?_, ?_, ?_⟩
  · rw [pushed, Array.size_push]
    exact Nat.lt_succ_of_lt carries.present
  · rw [document_push_of_lt pushed carries.present, carries.identifier_eq]
  · rw [document_push_of_lt pushed carries.present, carries.sequence_eq]

end Carries

end Workspace

namespace Action

variable [Machine]

/-- A client loads a document and takes an editable one of its own. -/
def checkOut (number : Nat) (identifier : String) : Action (Option Nat) := do
  match ← load number identifier with
  | some loaded => return some (← editDocument loaded)
  | none => return none

section Clients

variable {workspace : Workspace} {engine number : Nat} {address : Address}
  {requests : List (Request Tree)} (keeps : workspace.Keeps engine requests)
  (linked : workspace.collection number = ⟨engine, address⟩)

include keeps linked

/-- What a client checks out carries the sequence of the stored version; the documents of the
others carry what they did. -/
theorem run_checkOut {identifier : String} (named : identifier ≠ "") {entry : Entry}
    (known : Ledger.ofHistory (Memory.empty.history requests) (address, identifier) = some entry) :
    ∃ client after, (checkOut number identifier).run.run workspace = (.ok (some client), after)
      ∧ after.Keeps engine (requests ++ [.getDocument address identifier])
      ∧ Ledger.ofHistory (Memory.empty.history (requests ++ [.getDocument address identifier]))
          (address, identifier) = some entry
      ∧ after.Carries client identifier entry.result.sequence
      ∧ ∀ other otherName sequence, workspace.Carries other otherName sequence →
        other ≠ client ∧ after.Carries other otherName sequence := by
  obtain ⟨between, loading, kept, revision, bag, collection, pushed⟩ :=
    run_load keeps linked named known
  have loaded := Workspace.document_push pushed
  have namedLoaded : (between.document workspace.documents.size).identifier ≠ "" := by
    rw [loaded]
    exact named
  obtain ⟨after, editing, engines, _, _, _, pushedAgain⟩ := run_editDocument namedLoaded
  refine ⟨between.documents.size, after, ?_, ?_, ?_, ⟨?_, ?_, ?_⟩, ?_⟩
  · rw [checkOut, run_bind, loading]
    dsimp only
    rw [run_bind, editing]
    rfl
  · rw [Workspace.Keeps, engines]
    exact kept
  · rw [Memory.ofHistory_append_singleton]
    exact known
  · rw [pushedAgain, Array.size_push]
    exact Nat.lt_succ_self _
  · rw [Workspace.document_push pushedAgain, loaded]
  · rw [Workspace.document_push pushedAgain, loaded]
  · intro other otherName sequence carries
    refine ⟨?_, (carries.of_push pushed).of_push pushedAgain⟩
    have old := carries.present
    rw [pushed, Array.size_push]
    omega

/-- A save without conflict of a bag that can be stored writes the new version back. -/
theorem run_save_of_free {document : Nat} {control : Option ConcurrencyControl} {form : Json}
    (present : document < workspace.documents.size)
    (storable : (workspace.store.unfold (.cell (workspace.document document).bag)).storedForm = .ok form)
    (free : (Memory.empty.afterRun requests).hasConflict address
      (workspace.document document).identifier control (workspace.document document).sequence = false) :
    ∃ after entry, (save number document control).run.run workspace = (.ok (), after)
      ∧ after.Keeps engine (requests ++ [workspace.saveRequest address document control])
      ∧ Ledger.ofHistory (Memory.empty.history
          (requests ++ [workspace.saveRequest address document control]))
          (address, (workspace.document document).identifier) = some entry
      ∧ entry.result.sequence = (Memory.empty.afterRun requests).nextSequence
      ∧ after.Carries document (workspace.document document).identifier entry.result.sequence
      ∧ ∃ changed, after.documents = workspace.documents.setIfInBounds document changed := by
  obtain ⟨log, saving⟩ := run_save keeps linked document control
  obtain ⟨contents, answering⟩ := Memory.save_of_storedForm_ok free storable
  obtain ⟨entry, known, _, result⟩ := Memory.exists_entry_of_save requests storable free
  have kept := keeps.answered (workspace.saveRequest address document control) log
  simp only [Workspace.saveRequest, Memory.step, answering] at saving kept
  refine ⟨_, entry, saving, kept, known, ?_, ⟨?_, ?_, ?_⟩, _, rfl⟩
  · rw [result]
    rfl
  · show document < (workspace.documents.setIfInBounds document _).size
    rw [Array.size_setIfInBounds]
    exact present
  · rw [Workspace.document_set present rfl]
    rfl
  · rw [Workspace.document_set present rfl, result]

/-- A save in conflict changes neither the documents nor what is stored. -/
theorem run_save_of_conflict {document : Nat} {control : Option ConcurrencyControl}
    (conflict : (Memory.empty.afterRun requests).hasConflict address
      (workspace.document document).identifier control (workspace.document document).sequence = true) :
    ∃ after, (save number document control).run.run workspace =
        (.error (.database (.conflict (workspace.document document).identifier)), after)
      ∧ after.Keeps engine (requests ++ [workspace.saveRequest address document control])
      ∧ Ledger.ofHistory (Memory.empty.history
          (requests ++ [workspace.saveRequest address document control])) =
        Ledger.ofHistory (Memory.empty.history requests)
      ∧ after.documents = workspace.documents := by
  obtain ⟨log, saving⟩ := run_save keeps linked document control
  have kept := keeps.answered (workspace.saveRequest address document control) log
  have recorded := Memory.ofHistory_append_singleton requests
    (workspace.saveRequest address document control)
  simp only [Workspace.saveRequest, Memory.step, Memory.save_of_conflict conflict] at saving kept recorded
  exact ⟨_, saving, kept, recorded, rfl⟩

/-- A save that succeeds was accepted by the engine. -/
theorem accepted_of_run_save {document : Nat} {control : Option ConcurrencyControl}
    {after : Workspace} (saved : (save number document control).run.run workspace = (.ok (), after)) :
    ∃ reply, ((Memory.empty.afterRun requests).step
      (workspace.saveRequest address document control)).1.result = .ok reply := by
  obtain ⟨log, saving⟩ := run_save keeps linked document control
  rw [saved] at saving
  cases stepped : (Memory.empty.afterRun requests).step
      (workspace.saveRequest address document control) with
  | mk outcome memory =>
      obtain ⟨result, report⟩ := outcome
      cases result with
      | ok reply => exact ⟨reply, rfl⟩
      | error failure =>
          rw [stepped] at saving
          cases saving

/-- What a save that succeeds writes back is the version that is stored then. -/
theorem run_save_writes_back {document : Nat} {control : Option ConcurrencyControl}
    {after : Workspace} (present : document < workspace.documents.size)
    (saved : (save number document control).run.run workspace = (.ok (), after)) :
    after.Keeps engine (requests ++ [workspace.saveRequest address document control])
      ∧ ∃ entry, Ledger.ofHistory (Memory.empty.history
          (requests ++ [workspace.saveRequest address document control]))
          (address, (workspace.document document).identifier) = some entry
        ∧ after.Carries document (workspace.document document).identifier entry.result.sequence := by
  obtain ⟨reply, accepted⟩ := accepted_of_run_save keeps linked saved
  obtain ⟨form, storable⟩ := Memory.exists_storedForm_of_accepted accepted
  obtain ⟨next, entry, saving, kept, known, _, carries, _⟩ :=
    run_save_of_free keeps linked present storable (Memory.hasConflict_of_accepted accepted)
  rw [saved] at saving
  cases saving
  exact ⟨kept, entry, known, carries⟩

section Carried

variable {document : Nat} {identifier : String} {sequence : Int} {control : Option ConcurrencyControl}
  (carries : workspace.Carries document identifier sequence)

include carries

/-- A client whose sequence is in no conflict saves, and carries the new one. -/
theorem run_save_of_carried_free {form : Json}
    (storable : (workspace.store.unfold (.cell (workspace.document document).bag)).storedForm = .ok form)
    (free : (Memory.empty.afterRun requests).hasConflict address identifier control sequence = false) :
    ∃ after entry, (save number document control).run.run workspace = (.ok (), after)
      ∧ after.Keeps engine (requests ++ [workspace.saveRequest address document control])
      ∧ Ledger.ofHistory (Memory.empty.history
          (requests ++ [workspace.saveRequest address document control])) (address, identifier) =
        some entry
      ∧ entry.result.sequence = (Memory.empty.afterRun requests).nextSequence
      ∧ after.Carries document identifier entry.result.sequence
      ∧ ∃ changed, after.documents = workspace.documents.setIfInBounds document changed := by
  obtain ⟨present, rfl, rfl⟩ := carries
  exact run_save_of_free keeps linked present storable free

/-- A client whose sequence is in conflict is refused, and nothing changes. -/
theorem run_save_of_carried_conflict
    (conflict : (Memory.empty.afterRun requests).hasConflict address identifier control sequence = true) :
    ∃ after, (save number document control).run.run workspace =
        (.error (.database (.conflict identifier)), after)
      ∧ after.Keeps engine (requests ++ [workspace.saveRequest address document control])
      ∧ Ledger.ofHistory (Memory.empty.history
          (requests ++ [workspace.saveRequest address document control])) =
        Ledger.ofHistory (Memory.empty.history requests)
      ∧ after.documents = workspace.documents := by
  obtain ⟨present, rfl, rfl⟩ := carries
  exact run_save_of_conflict keeps linked conflict

end Carried

end Clients

end Action

/-! ### Rounds -/

/-- Neither a save nor a removal of a document. -/
def Event.LeavesVersion (key : Address × String) (event : Event) : Prop :=
  ∀ change, event.change? = some (key, change) → ∃ expiration, change = .expires expiration

/-- What some clients do with a document of an engine, and how each of their saves goes. Between
the saves anything may happen, except that somebody else writes or removes the document, or that
a client loads it again. -/
inductive Round [Machine] (engine : Nat) (address : Address) (identifier : String)
    (clients : List Nat) :
    List (Request Tree) → Workspace → List (Nat × Except Failure Unit) → Prop where
  | done {requests : List (Request Tree)} {workspace : Workspace} :
      Round engine address identifier clients requests workspace []
  | others {requests more : List (Request Tree)} {workspace after : Workspace}
      {outcomes : List (Nat × Except Failure Unit)}
      (keeps : after.Keeps engine (requests ++ more))
      (leaves : ∀ event ∈ (Memory.empty.afterRun requests).history more,
        event.LeavesVersion (address, identifier))
      (carries : ∀ client ∈ clients, ∀ sequence, workspace.Carries client identifier sequence →
        after.Carries client identifier sequence)
      (rest : Round engine address identifier clients (requests ++ more) after outcomes) :
      Round engine address identifier clients requests workspace outcomes
  | saves {requests : List (Request Tree)} {workspace after : Workspace} {client number : Nat}
      {form : Json} {result : Except Failure Unit} {outcomes : List (Nat × Except Failure Unit)}
      (member : client ∈ clients) (linked : workspace.collection number = ⟨engine, address⟩)
      (storable : (workspace.store.unfold (.cell (workspace.document client).bag)).storedForm = .ok form)
      (saving : (Action.save number client (some .failOnConflict)).run.run workspace = (result, after))
      (rest : Round engine address identifier clients
        (requests ++ [workspace.saveRequest address client (some .failOnConflict)]) after outcomes) :
      Round engine address identifier clients requests workspace ((client, result) :: outcomes)

/-- While it is neither saved nor removed, the same version of a document is known. -/
theorem Memory.same_version_known [Machine] {requests more : List (Request Tree)}
    {key : Address × String}
    (leaves : ∀ event ∈ (empty.afterRun requests).history more, event.LeavesVersion key)
    {entry : Entry} (known : Ledger.ofHistory (empty.history requests) key = some entry) :
    ∃ still, Ledger.ofHistory (empty.history (requests ++ more)) key = some still
      ∧ still.data = entry.data ∧ still.result = entry.result := by
  refine known_after_more (fun event member change changed => ?_) known ⟨rfl, rfl⟩
  obtain ⟨expiration, rfl⟩ := leaves event member change changed
  exact Change.preserves_of_expires expiration entry.data entry.result

namespace Round

variable [Machine] {engine : Nat} {address : Address} {identifier : String} {clients : List Nat}
  {requests : List (Request Tree)} {workspace : Workspace}
  {outcomes : List (Nat × Except Failure Unit)}

/-- A client carries a sequence that is not the current one and was assigned already. -/
def Outdated (workspace : Workspace) (requests : List (Request Tree)) (identifier : String)
    (current : Int) (client : Nat) : Prop :=
  ∃ sequence : Nat, workspace.Carries client identifier sequence ∧ (sequence : Int) ≠ current
    ∧ sequence < (Memory.empty.afterRun requests).nextSequence

/-- A client that is outdated stays so until it carries another sequence. -/
theorem Outdated.append {after : Workspace} {current : Int} {client : Nat}
    (outdated : Outdated workspace requests identifier current client)
    (carries : ∀ sequence, workspace.Carries client identifier sequence →
      after.Carries client identifier sequence)
    (more : List (Request Tree)) : Outdated after (requests ++ more) identifier current client := by
  obtain ⟨sequence, carried, old, bounded⟩ := outdated
  exact ⟨sequence, carries _ carried, old,
    Nat.lt_of_lt_of_le bounded (Memory.nextSequence_le_append _ _)⟩

/-- A sequence that is assigned outdates all others. -/
theorem outdated_of_fresh {after : Workspace} {sequence : Nat} {client : Nat} {current : Int}
    (carried : after.Carries client identifier sequence)
    (bounded : sequence < (Memory.empty.afterRun requests).nextSequence)
    (fresh : current = (Memory.empty.afterRun requests).nextSequence) (more : List (Request Tree)) :
    Outdated after (requests ++ more) identifier current client := by
  refine ⟨sequence, carried, ?_, Nat.lt_of_lt_of_le bounded (Memory.nextSequence_le_append _ _)⟩
  rw [fresh]
  omega

section Saves

variable {after : Workspace} {client number : Nat} {result : Except Failure Unit} {entry : Entry}
  (keeps : workspace.Keeps engine requests)
  (known : Ledger.ofHistory (Memory.empty.history requests) (address, identifier) = some entry)
  (linked : workspace.collection number = ⟨engine, address⟩)
  (saving : (Action.save number client (some .failOnConflict)).run.run workspace = (result, after))

include keeps known linked saving

/-- A client that is up to date saves, and is up to date again. -/
theorem save_of_current (current : workspace.Carries client identifier entry.result.sequence)
    {form : Json}
    (storable : (workspace.store.unfold (.cell (workspace.document client).bag)).storedForm = .ok form) :
    result = .ok ()
      ∧ after.Keeps engine
        (requests ++ [workspace.saveRequest address client (some .failOnConflict)])
      ∧ ∃ next, Ledger.ofHistory (Memory.empty.history
          (requests ++ [workspace.saveRequest address client (some .failOnConflict)]))
          (address, identifier) = some next
        ∧ next.result.sequence = (Memory.empty.afterRun requests).nextSequence
        ∧ after.Carries client identifier next.result.sequence
        ∧ ∃ changed, after.documents = workspace.documents.setIfInBounds client changed := by
  have free := Memory.hasConflict_of_known known entry.result.sequence
  rw [decide_eq_false (not_not_intro rfl)] at free
  obtain ⟨_, next, saved, kept, knownNext, fresh, carries, set⟩ :=
    Action.run_save_of_carried_free keeps linked current storable free
  rw [saving] at saved
  cases saved
  exact ⟨rfl, kept, next, knownNext, fresh, carries, set⟩

/-- A client that is outdated is refused, and nothing changes. -/
theorem save_of_outdated
    (outdated : Outdated workspace requests identifier entry.result.sequence client) :
    result = .error (.database (.conflict identifier))
      ∧ after.Keeps engine
        (requests ++ [workspace.saveRequest address client (some .failOnConflict)])
      ∧ Ledger.ofHistory (Memory.empty.history
          (requests ++ [workspace.saveRequest address client (some .failOnConflict)])) =
        Ledger.ofHistory (Memory.empty.history requests)
      ∧ after.documents = workspace.documents := by
  obtain ⟨sequence, carried, old, _⟩ := outdated
  have conflict := Memory.hasConflict_of_known known sequence
  rw [decide_eq_true old] at conflict
  obtain ⟨_, refused, kept, ledger, documents⟩ :=
    Action.run_save_of_carried_conflict keeps linked carried conflict
  rw [saving] at refused
  cases refused
  exact ⟨rfl, kept, ledger, documents⟩

end Saves

/-- Once a client is up to date and the others are not, its saves go through and theirs do not. -/
theorem outcome_after_first (round : Round engine address identifier clients requests workspace outcomes)
    {winner : Nat} (winnerMember : winner ∈ clients) (keeps : workspace.Keeps engine requests)
    {entry : Entry}
    (known : Ledger.ofHistory (Memory.empty.history requests) (address, identifier) = some entry)
    (current : workspace.Carries winner identifier entry.result.sequence)
    (outdated : ∀ client ∈ clients, client ≠ winner →
      Outdated workspace requests identifier entry.result.sequence client) :
    ∀ client result, (client, result) ∈ outcomes →
      result = if client = winner then .ok () else .error (.database (.conflict identifier)) := by
  induction round generalizing entry with
  | done =>
      intro client result member
      cases member
  | @others requests more workspace after outcomes keepsAfter leaves carries _ inductionHypothesis =>
      obtain ⟨still, knownStill, _, same⟩ := Memory.same_version_known leaves known
      rw [← same] at current outdated
      apply inductionHypothesis keepsAfter knownStill (carries winner winnerMember _ current)
      intro client member different
      exact (outdated client member different).append (carries client member) more
  | @saves requests workspace after client number form result outcomes member linked storable saving
      _ inductionHypothesis =>
      by_cases same : client = winner
      · subst same
        obtain ⟨rfl, kept, next, knownNext, fresh, carriesNext, _, set⟩ :=
          save_of_current keeps known linked saving current storable
        have rest := inductionHypothesis kept knownNext carriesNext fun other otherMember different => by
          obtain ⟨sequence, carried, _, bounded⟩ := outdated other otherMember different
          exact outdated_of_fresh (carried.of_set (Ne.symm different) set) bounded fresh _
        intro saver outcome listed
        rcases List.mem_cons.1 listed with first | later
        · cases first
          rw [if_pos rfl]
        · exact rest saver outcome later
      · obtain ⟨rfl, kept, ledger, documents⟩ :=
          save_of_outdated keeps known linked saving (outdated client member same)
        rw [← ledger] at known
        have rest := inductionHypothesis kept known (current.of_documents_eq documents)
          fun other otherMember different => (outdated other otherMember different).append
            (fun _ carried => carried.of_documents_eq documents) _
        intro saver outcome listed
        rcases List.mem_cons.1 listed with first | later
        · cases first
          rw [if_neg same]
        · exact rest saver outcome later

/-- Of clients that carry the stored version, the first to save goes through, whenever it saves,
and each of the others is refused. -/
theorem outcome_eq (round : Round engine address identifier clients requests workspace outcomes)
    (keeps : workspace.Keeps engine requests) {entry : Entry}
    (known : Ledger.ofHistory (Memory.empty.history requests) (address, identifier) = some entry)
    (current : ∀ client ∈ clients, workspace.Carries client identifier entry.result.sequence) :
    ∀ client result, (client, result) ∈ outcomes →
      result = if some client = outcomes.head?.map Prod.fst then .ok ()
        else .error (.database (.conflict identifier)) := by
  induction round generalizing entry with
  | done =>
      intro client result member
      cases member
  | @others requests more workspace after outcomes keepsAfter leaves carries _ inductionHypothesis =>
      obtain ⟨still, knownStill, _, same⟩ := Memory.same_version_known leaves known
      rw [← same] at current
      apply inductionHypothesis keepsAfter knownStill
      intro client member
      exact carries client member _ (current client member)
  | @saves requests workspace after client number form result outcomes member linked storable saving
      round _ =>
      obtain ⟨rfl, kept, next, knownNext, fresh, carriesNext, _, set⟩ :=
        save_of_current keeps known linked saving (current client member) storable
      obtain ⟨sequence, sequence_eq, _, bounded⟩ := Memory.sequence_of_known known
      rw [sequence_eq] at current
      have rest := round.outcome_after_first member kept knownNext carriesNext
        fun other otherMember different =>
          outdated_of_fresh ((current other otherMember).of_set (Ne.symm different) set) bounded fresh _
      intro saver outcome listed
      rw [List.head?_cons, Option.map_some]
      rcases List.mem_cons.1 listed with first | later
      · cases first
        rw [if_pos rfl]
      · rw [rest saver outcome later]
        simp only [Option.some.injEq]

end Round

namespace Memory

/-- While a document is stored, a change that fails on conflict passes with the sequence of the
document's last save and with no other one. This sequence is positive; where it was known before, it
was this document's, and the version it stands for was there ever since. -/
structure OnlyLastVersionPasses [Machine] (requests : List (Request Tree)) (collection : Address)
    (identifier : String) (entry : Entry) : Prop where
  deletions : OnlyCurrentPasses identifier entry.result.sequence fun sequence =>
    ((empty.afterRun requests).step
      (.deleteDocument collection identifier (some .failOnConflict) sequence)).1
  saves : ∀ (data : Tree) (overwriting : Int),
    (∃ reply, ((empty.afterRun requests).step (.save collection identifier data
        (some .lastWriteWins) overwriting)).1.result = .ok reply) →
      OnlyCurrentPasses identifier entry.result.sequence fun sequence =>
        ((empty.afterRun requests).step
          (.save collection identifier data (some .failOnConflict) sequence)).1
  positive : 0 < entry.result.sequence
  version : ∀ earlier later, requests = earlier ++ later → ∀ other otherEntry,
    Ledger.ofHistory (empty.history earlier) other = some otherEntry →
      otherEntry.result.sequence = entry.result.sequence →
        other = (collection, identifier) ∧ ∀ middle rest, later = middle ++ rest →
          ((empty.afterRun (earlier ++ middle)).step (.getDocument collection identifier)).1 =
            ((empty.afterRun requests).step (.getDocument collection identifier)).1

/-- What a client loads carries the sequence of the document's last save. Of clients that carry it,
only the first to save goes through until the others load again. And what a save writes back is the
sequence that is current from then on. -/
structure ClientsTakeTurns [Machine] (requests : List (Request Tree)) (collection : Address)
    (identifier : String) (entry : Entry) (workspace : Workspace) (engine : Nat) : Prop where
  loads : ∀ number, workspace.collection number = ⟨engine, collection⟩ → identifier ≠ "" →
    ∃ client after,
      (Action.checkOut number identifier).run.run workspace = (.ok (some client), after)
        ∧ after.Keeps engine (requests ++ [.getDocument collection identifier])
        ∧ Ledger.ofHistory (empty.history (requests ++ [.getDocument collection identifier]))
          (collection, identifier) = some entry
        ∧ after.Carries client identifier entry.result.sequence
        ∧ ∀ other otherName sequence, workspace.Carries other otherName sequence →
          other ≠ client ∧ after.Carries other otherName sequence
  first : ∀ clients outcomes,
    (∀ client ∈ clients, workspace.Carries client identifier entry.result.sequence) →
      Round engine collection identifier clients requests workspace outcomes →
        ∀ client result, (client, result) ∈ outcomes →
          result = if some client = outcomes.head?.map Prod.fst then .ok ()
            else .error (.database (.conflict identifier))
  writesBack : ∀ number document control after,
    workspace.collection number = ⟨engine, collection⟩ → document < workspace.documents.size →
      (Action.save number document control).run.run workspace = (.ok (), after) →
        ∃ saved, Ledger.ofHistory (empty.history
            (requests ++ [workspace.saveRequest collection document control]))
            (collection, (workspace.document document).identifier) = some saved
          ∧ after.Carries document (workspace.document document).identifier saved.result.sequence

/-- No update is lost: only the last version of a stored document passes, after any run of the
engine, and clients take turns in any program that has put this run to the engine. -/
theorem no_update_is_lost [Machine] (requests : List (Request Tree)) {collection : Address}
    {identifier : String} {entry : Entry}
    (known : Ledger.ofHistory (empty.history requests) (collection, identifier) = some entry) :
    OnlyLastVersionPasses requests collection identifier entry
      ∧ ∀ (workspace : Workspace) (engine : Nat), workspace.Keeps engine requests →
        ClientsTakeTurns requests collection identifier entry workspace engine := by
  obtain ⟨stored, found, version⟩ := (represents_afterRun requests).exists_version known
  have current : (entry.result.sequence : Int) = stored.sequence := by rw [version.result_eq, resultOf]
  obtain ⟨sequence, sequence_eq, positive, _⟩ := sequence_of_known known
  refine ⟨⟨?_, ?_, ?_, ?_⟩, ?_⟩
  · rw [current]
    exact onlyCurrentPasses_delete found
  · rintro data overwriting ⟨reply, accepted⟩
    obtain ⟨form, storable⟩ := exists_storedForm_of_accepted accepted
    rw [current]
    exact onlyCurrentPasses_save found storable
  · rw [sequence_eq]
    exact Int.natCast_pos.2 positive
  · rintro earlier later rfl other otherEntry otherKnown same
    obtain ⟨own, since⟩ := version_since known otherKnown same
    refine ⟨own, fun middle rest split => ?_⟩
    have stood := since middle rest split
    dsimp only at stood
    rw [step, step, stood, found]
  · intro workspace engine keeps
    refine ⟨fun number linked named => Action.run_checkOut keeps linked named known, ?_, ?_⟩
    · exact fun clients outcomes carried round => round.outcome_eq keeps known carried
    · intro number document control after linked present saved
      exact (Action.run_save_writes_back keeps linked present saved).2

theorem stored_document_is_protected :
    ∃ entry, Ledger.ofHistory (empty.history [.save notes "trip" (.object plainFields) none 0])
        (notes, "trip") = some entry
      ∧ (OnlyCurrentPasses "trip" entry.result.sequence fun sequence =>
        ((empty.afterRun [.save notes "trip" (.object plainFields) none 0]).step
          (.deleteDocument notes "trip" (some .failOnConflict) sequence)).1)
      ∧ (OnlyCurrentPasses "trip" entry.result.sequence fun sequence =>
        ((empty.afterRun [.save notes "trip" (.object plainFields) none 0]).step
          (.save notes "trip" (.object plainFields) (some .failOnConflict) sequence)).1)
      ∧ 0 < entry.result.sequence := by
  have form : (Tree.object plainFields).storedForm =
      .ok (.object [("title", .text "Holidays"), ("days", .array [.integer 3, .double (.zero true)])]) := by
    rw [Tree.storedForm, Tree.throughText_eq]
    rfl
  obtain ⟨entry, known, _⟩ := exists_entry_of_save [] form rfl
  obtain ⟨passes, _⟩ := no_update_is_lost [.save notes "trip" (.object plainFields) none 0] known
  refine ⟨entry, known, passes.deletions, ?_, passes.positive⟩
  have free := @hasConflict_of_ne_failOnConflict
    (empty.afterRun [.save notes "trip" (.object plainFields) none 0]) notes "trip"
    (some .lastWriteWins) 0 (by decide)
  exact passes.saves (.object plainFields) 0 (exists_reply_of_storedForm free form)

end Memory

namespace Action

/-- Two clients check out one document and save it, one after the other. -/
def contend [Machine] (identifier : String) : Action Unit := do
  let number ← newCollection (← newEngine (.memory .empty)) (some "notes") none none
  let bag ← place (.object [])
  let _ ← requestOf number fun address => .save address identifier bag none 0
  match ← checkOut number identifier, ← checkOut number identifier with
  | some first, some second => do
      save number first (some .failOnConflict)
      save number second (some .failOnConflict)
  | _, _ => throw (.database (.notFound identifier))

/-- A document without a name is not protected: each client gets a document of another name. -/
theorem document_without_name_is_not_protected :
    ((contend "").run.run (.start [])).1.isOk = true
      ∧ ((contend "trip").run.run (.start [])).1.isOk = false := by
  decide +kernel

end Action

end DocumentStore
