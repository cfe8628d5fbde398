import DocumentStore.Proofs.Engine.Detachment

/-!
Contract: the history of an engine, and what a single request can do to it.

Owns: the events of a run, the changes that successful requests make to documents,
the ledger these changes add up to, and one description of all effects that a
request has on the stored documents, their expirations and the count of sequences.

Does not own: invariants of runs. Each of them follows from `effect_step`.

A ledger is kept from requests and their outcomes only. It does not look into the
engine, so that what the engine answers can be compared with it.
-/

set_option autoImplicit false

namespace DocumentStore

/-- A request and how it went. -/
structure Event where
  request : Request Tree
  outcome : Outcome

/-- What a request that succeeded did to a document. -/
inductive Change where
  | saved (data : Tree) (result : SaveResult)
  | removed
  | expires (expiration : Option String)

/-- The document that an event changed, and how. Failures and readings change none. -/
def Event.change? : Event → Option ((Address × String) × Change)
  | ⟨.save collection identifier data _ _, ⟨.ok (.saved result), _⟩⟩ =>
      some ((collection, identifier), .saved data result)
  | ⟨.deleteDocument collection identifier _ _, ⟨.ok _, _⟩⟩ =>
      some ((collection, identifier), .removed)
  | ⟨.purgeDocument collection identifier, ⟨.ok _, _⟩⟩ =>
      some ((collection, identifier), .removed)
  | ⟨.setExpiration collection identifier expiration, ⟨.ok _, _⟩⟩ =>
      some ((collection, identifier), .expires expiration)
  | _ => none

/-- What is known of a document that is present: the bag given to its last save, what that
save returned, the number of saves since it came into existence, and the expiration set
since then. -/
structure Entry where
  data : Tree
  result : SaveResult
  saves : Nat
  expiration : Option String

/-- What a change makes of what was known. An overwriting save keeps the expiration. -/
def Change.apply : Change → Option Entry → Option Entry
  | .saved data result, none => some ⟨data, result, 1, none⟩
  | .saved data result, some entry => some ⟨data, result, entry.saves + 1, entry.expiration⟩
  | .removed, _ => none
  | .expires expiration, known => known.map fun entry => { entry with expiration }

/-- What holds of a document that is present still holds after a change, which leaves it present. -/
def Change.Preserves (change : Change) (holds : Entry → Prop) : Prop :=
  ∀ entry, holds entry → ∃ still, change.apply (some entry) = some still ∧ holds still

/-- A save keeps the expiration. -/
theorem Change.preserves_of_saved (data : Tree) (result : SaveResult) (expiration : Option String) :
    (Change.saved data result).Preserves fun entry => entry.expiration = expiration :=
  fun _ same => ⟨_, rfl, same⟩

/-- An expiration leaves the version. -/
theorem Change.preserves_of_expires (expiration : Option String) (data : Tree) (result : SaveResult) :
    (Change.expires expiration).Preserves fun entry => entry.data = data ∧ entry.result = result :=
  fun _ same => ⟨_, rfl, same⟩

/-- The documents that are present, with what is known of them. -/
abbrev Ledger := Address × String → Option Entry

namespace Ledger

/-- The ledger at the start. -/
def empty : Ledger :=
  fun _ => none

/-- The ledger after one more change. -/
def record (ledger : Ledger) : Option ((Address × String) × Change) → Ledger
  | some (key, change) => fun other =>
      if key = other then change.apply (ledger key) else ledger other
  | none => ledger

theorem record_apply (ledger : Ledger) (key : Address × String) (change : Change)
    (other : Address × String) :
    ledger.record (some (key, change)) other =
      if key = other then change.apply (ledger key) else ledger other := rfl

/-- The ledger after some more events. -/
def extend (ledger : Ledger) (events : List Event) : Ledger :=
  events.foldl (fun current event => current.record event.change?) ledger

/-- The ledger of a history. -/
def ofHistory (events : List Event) : Ledger :=
  empty.extend events

/-- What all changes of a document keep true of it stays true of it. -/
theorem extend_preserves {ledger : Ledger} {events : List Event} {key : Address × String}
    {holds : Entry → Prop}
    (preserved : ∀ event ∈ events, ∀ change, event.change? = some (key, change) →
      change.Preserves holds)
    {entry : Entry} (known : ledger key = some entry) (held : holds entry) :
    ∃ still, ledger.extend events key = some still ∧ holds still := by
  induction events generalizing ledger entry with
  | nil => exact ⟨entry, known, held⟩
  | cons event rest inductionHypothesis =>
      obtain ⟨between, knownBetween, heldBetween⟩ : ∃ between,
          ledger.record event.change? key = some between ∧ holds between := by
        cases changed : event.change? with
        | none => exact ⟨entry, known, held⟩
        | some change =>
            obtain ⟨other, change⟩ := change
            rw [Ledger.record_apply]
            by_cases about : other = key
            · subst about
              rw [if_pos rfl, known]
              exact preserved event List.mem_cons_self change changed entry held
            · rw [if_neg about]
              exact ⟨entry, known, held⟩
      exact inductionHypothesis (fun event member => preserved event (List.mem_cons_of_mem _ member))
        knownBetween heldBetween

end Ledger

namespace Memory

/-! ### Runs -/

section Runs

variable [Machine] (memory : Memory)

/-- What a run asked and how each request went. -/
def history (requests : List (Request Tree)) : List Event :=
  List.zipWith Event.mk requests (memory.run requests).1

/-- The state after a run. -/
def afterRun (requests : List (Request Tree)) : Memory :=
  (memory.run requests).2

@[simp] theorem history_nil : memory.history [] = [] := rfl

@[simp] theorem afterRun_nil : memory.afterRun [] = memory := rfl

@[simp] theorem history_cons (request : Request Tree) (rest : List (Request Tree)) :
    memory.history (request :: rest) =
      ⟨request, (memory.step request).1⟩ :: (memory.step request).2.history rest := rfl

@[simp] theorem afterRun_cons (request : Request Tree) (rest : List (Request Tree)) :
    memory.afterRun (request :: rest) = (memory.step request).2.afterRun rest := rfl

theorem afterRun_append (first second : List (Request Tree)) :
    memory.afterRun (first ++ second) = (memory.afterRun first).afterRun second := by
  induction first generalizing memory with
  | nil => rfl
  | cons request rest inductionHypothesis =>
      exact inductionHypothesis (memory.step request).2

theorem history_append (first second : List (Request Tree)) :
    memory.history (first ++ second) =
      memory.history first ++ (memory.afterRun first).history second := by
  induction first generalizing memory with
  | nil => rfl
  | cons request rest inductionHypothesis =>
      rw [List.cons_append, history_cons, history_cons, inductionHypothesis]
      rfl

end Runs

theorem ofHistory_append [Machine] (requests more : List (Request Tree)) :
    Ledger.ofHistory (empty.history (requests ++ more)) =
      (Ledger.ofHistory (empty.history requests)).extend
        ((empty.afterRun requests).history more) := by
  rw [history_append]
  exact List.foldl_append

/-- What the rest of a run keeps true of a document is true of it at the end. -/
theorem known_after_more [Machine] {requests more : List (Request Tree)} {key : Address × String}
    {holds : Entry → Prop}
    (preserved : ∀ event ∈ (empty.afterRun requests).history more, ∀ change,
      event.change? = some (key, change) → change.Preserves holds)
    {entry : Entry} (known : Ledger.ofHistory (empty.history requests) key = some entry)
    (held : holds entry) :
    ∃ still, Ledger.ofHistory (empty.history (requests ++ more)) key = some still ∧ holds still := by
  rw [ofHistory_append]
  exact Ledger.extend_preserves preserved known held

/-! ### Saving -/

section Saving

variable {memory : Memory} {collection : Address} {identifier : String} {data : Tree}
  {control : Option ConcurrencyControl} {sequence : Int}

/-- The record that the next save of a document makes. -/
def nextVersion (memory : Memory) (collection : Address) (identifier : String) (stored : Json) :
    StoredDocument :=
  let generation : Nat := ((memory.document? collection identifier).map (·.generation + 1)).getD 1
  ⟨identifier, memory.nextSequence, generation, revisionIdentifier generation stored, stored⟩

/-- What a save returns of the record it made. -/
def resultOf (stored : StoredDocument) : SaveResult :=
  ⟨stored.identifier, some stored.revision, stored.sequence⟩

/-- Whether the stored version of a document stands in the way of a change. -/
def hasConflict (memory : Memory) (collection : Address) (identifier : String)
    (control : Option ConcurrencyControl) (sequence : Int) : Bool :=
  (memory.document? collection identifier).any (isConflict · control sequence)

/-- Only a change that is to fail on conflict can be in conflict. -/
theorem hasConflict_of_ne_failOnConflict (overwrites : control ≠ some .failOnConflict) :
    memory.hasConflict collection identifier control sequence = false := by
  rw [hasConflict]
  cases memory.document? collection identifier with
  | none => rfl
  | some stored => rw [Option.any_some, isConflict, beq_false_of_ne overwrites, Bool.false_and]

variable [Machine]

/-- A save that is in conflict changes nothing. -/
theorem save_of_conflict
    (conflict : memory.hasConflict collection identifier control sequence = true) :
    memory.save collection identifier data control sequence =
      (.error (.database (.conflict identifier)), memory) := by
  unfold hasConflict at conflict
  unfold save
  rw [if_pos conflict]

/-- A save without conflict of a bag that cannot be stored fails for the bag's own fault and
changes the content store only. -/
theorem save_of_storedForm_error {failure : Failure}
    (free : memory.hasConflict collection identifier control sequence = false)
    (form : data.storedForm = .error failure) :
    ∃ contents, memory.save collection identifier data control sequence =
      (.error failure, { memory with contents }) := by
  unfold hasConflict at free
  unfold save
  rw [if_neg (by simp [free])]
  unfold Tree.storedForm at form
  cases copy : data.throughText true with
  | error cause =>
      rw [copy] at form
      cases form
      exact ⟨memory.contents, rfl⟩
  | ok copied =>
      have walked := ContentStore.detach_fst memory.contents copied
      rw [copy] at form
      simp only [bind, Except.bind, ← walked] at form
      dsimp only
      cases detaching : ContentStore.detach memory.contents copied with
      | mk result contents =>
          rw [detaching] at form
          cases result with
          | ok stored => cases form
          | error fault =>
              cases form
              exact ⟨contents, rfl⟩

/-- A save without conflict of a bag that can be stored makes the next version. -/
theorem save_of_storedForm_ok {stored : Json}
    (free : memory.hasConflict collection identifier control sequence = false)
    (form : data.storedForm = .ok stored) :
    ∃ contents, memory.save collection identifier data control sequence =
      (.ok (resultOf (memory.nextVersion collection identifier stored)),
        { memory with
          documents := Table.put memory.documents (collection, identifier)
            (memory.nextVersion collection identifier stored)
          contents
          nextSequence := memory.nextSequence + 1 }) := by
  unfold hasConflict at free
  unfold save
  rw [if_neg (by simp [free])]
  unfold Tree.storedForm at form
  cases copy : data.throughText true with
  | error cause =>
      rw [copy] at form
      cases form
  | ok copied =>
      have walked := ContentStore.detach_fst memory.contents copied
      rw [copy] at form
      simp only [bind, Except.bind, ← walked] at form
      dsimp only
      cases detaching : ContentStore.detach memory.contents copied with
      | mk result contents =>
          rw [detaching] at form
          cases result with
          | error fault => cases form
          | ok detached =>
              cases form
              exact ⟨contents, rfl⟩

theorem document?_step_save {stored : Json}
    (free : memory.hasConflict collection identifier control sequence = false)
    (form : data.storedForm = .ok stored) :
    (memory.step (.save collection identifier data control sequence)).2.document? collection
      identifier = some (memory.nextVersion collection identifier stored) := by
  obtain ⟨contents, saving⟩ := save_of_storedForm_ok free form
  simp only [step, saving, document?, Table.value?_put_self]

end Saving

/-! ### Effects -/

variable [Machine]

/-- What a request that made a change, or none, did to the stored documents, to their
expirations and to the count of sequences. -/
inductive Effect (memory : Memory) : Option ((Address × String) × Change) → Memory → Prop where
  | idle {after : Memory} (documents : after.documents = memory.documents)
      (expirations : after.expirations = memory.expirations)
      (nextSequence : after.nextSequence = memory.nextSequence) :
      Effect memory none after
  | saved {collection : Address} {identifier : String} {data : Tree} {stored : Json}
      {after : Memory} (form : data.storedForm = .ok stored)
      (documents : after.documents = Table.put memory.documents (collection, identifier)
        (memory.nextVersion collection identifier stored))
      (expirations : after.expirations = memory.expirations)
      (nextSequence : after.nextSequence = memory.nextSequence + 1) :
      Effect memory (some ((collection, identifier),
        .saved data (resultOf (memory.nextVersion collection identifier stored)))) after
  | removed {collection : Address} {identifier : String}
      (present : (memory.document? collection identifier).isSome) :
      Effect memory (some ((collection, identifier), .removed))
        (memory.forget collection identifier)
  | expires {collection : Address} {identifier : String} {expiration : Option String}
      {after : Memory} (present : (memory.document? collection identifier).isSome)
      (documents : after.documents = memory.documents)
      (expirations : after.expirations =
        match expiration with
        | none => Table.remove memory.expirations (collection, identifier)
        | some time => Table.put memory.expirations (collection, identifier) time)
      (nextSequence : after.nextSequence = memory.nextSequence) :
      Effect memory (some ((collection, identifier), .expires expiration)) after

/-- A save has the effect that its outcome says. -/
theorem effect_save (memory : Memory) (collection : Address) (identifier : String) (data : Tree)
    (control : Option ConcurrencyControl) (sequence : Int) :
    memory.Effect
      (Event.change? ⟨.save collection identifier data control sequence,
        (memory.step (.save collection identifier data control sequence)).1⟩)
      (memory.step (.save collection identifier data control sequence)).2 := by
  cases conflict : memory.hasConflict collection identifier control sequence with
  | true =>
      simp only [step, save_of_conflict conflict]
      exact .idle rfl rfl rfl
  | false =>
      cases form : data.storedForm with
      | error failure =>
          obtain ⟨contents, saving⟩ := save_of_storedForm_error conflict form
          simp only [step, saving]
          exact .idle rfl rfl rfl
      | ok stored =>
          obtain ⟨contents, saving⟩ := save_of_storedForm_ok conflict form
          simp only [step, saving]
          exact .saved form rfl rfl rfl

/-- Every request has the effect that its outcome says. -/
theorem effect_step (memory : Memory) (request : Request Tree) :
    memory.Effect (Event.change? ⟨request, (memory.step request).1⟩) (memory.step request).2 := by
  cases request with
  | save collection identifier data control sequence =>
      exact effect_save memory collection identifier data control sequence
  | getDocument collection identifier =>
      simp only [step]
      cases memory.document? collection identifier <;> exact .idle rfl rfl rfl
  | deleteDocument collection identifier control sequence =>
      simp only [step, delete]
      cases found : memory.document? collection identifier with
      | none => exact .idle rfl rfl rfl
      | some existing =>
          dsimp only
          split
          · exact .idle rfl rfl rfl
          · exact .removed (by simp [found])
  | purgeDocument collection identifier =>
      simp only [step, purge]
      cases found : memory.document? collection identifier with
      | none => exact .idle rfl rfl rfl
      | some existing => exact .removed (by simp [found])
  | getBlobContent collection identifier key => exact .idle rfl rfl rfl
  | createIndex collection name definition =>
      simp only [step, createIndex]
      cases definition.throughText false <;> exact .idle rfl rfl rfl
  | deleteIndex collection name => exact .idle rfl rfl rfl
  | getIndexes collection => exact .idle rfl rfl rfl
  | getCount collection => exact .idle rfl rfl rfl
  | setExpiration collection identifier expiration =>
      simp only [step, setExpiration]
      cases found : memory.document? collection identifier with
      | none => exact .idle rfl rfl rfl
      | some existing =>
          cases expiration with
          | none => exact .expires (by simp [found]) rfl rfl rfl
          | some time => exact .expires (by simp [found]) rfl rfl rfl
  | getExpiration collection identifier => exact .idle rfl rfl rfl
  | executeQuery database query parameters => exact .idle rfl rfl rfl
  | explainQuery database query parameters => exact .idle rfl rfl rfl

end Memory

end DocumentStore
