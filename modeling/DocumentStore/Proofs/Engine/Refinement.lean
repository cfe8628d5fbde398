import DocumentStore.Proofs.Engine.History
import DocumentStore.Proofs.Engine.Revisions

/-!
Contract: the engine answers as the ledger of its history says.

Owns: the relation between the state of the engine and a ledger, its preservation by
every request, and what the readings of documents, counts and expirations answer after
any run.

Does not own: the outcomes of changes; the ledger is kept from these.
-/

set_option autoImplicit false

namespace DocumentStore.Memory

/-- A stored document is the last of the saves that an entry counts. -/
structure IsVersionOf [Machine] (identifier : String) (entry : Entry) (stored : StoredDocument) :
    Prop where
  identifier_eq : stored.identifier = identifier
  result_eq : entry.result = resultOf stored
  form : entry.data.storedForm = .ok stored.data
  generation_eq : stored.generation = entry.saves
  revision_eq : stored.revision = revisionIdentifier stored.generation stored.data

/-- What the ledger knows under a key, and what the tables of the engine hold there. -/
inductive Agrees [Machine] (identifier : String) :
    Option Entry → Option StoredDocument → Option String → Prop where
  | absent : Agrees identifier none none none
  | present {entry : Entry} {stored : StoredDocument}
      (version : IsVersionOf identifier entry stored) :
      Agrees identifier (some entry) (some stored) entry.expiration

/-- The state of the engine holds the documents and expirations of a ledger, and no others. -/
structure Represents [Machine] (memory : Memory) (ledger : Ledger) : Prop where
  documentsDistinct : Table.Distinct memory.documents
  expirationsDistinct : Table.Distinct memory.expirations
  agrees : ∀ key : Address × String,
    Agrees key.2 (ledger key) (Table.value? memory.documents key)
      (Table.value? memory.expirations key)

theorem represents_empty [Machine] : Represents empty Ledger.empty :=
  ⟨List.nodup_nil, List.nodup_nil, fun _ => .absent⟩

namespace Agrees

variable [Machine]
  {identifier : String} {found : Option StoredDocument} {expiration : Option String}

theorem found_eq_none (agreement : Agrees identifier none found expiration) : found = none := by
  cases agreement
  rfl

theorem exists_version {entry : Entry}
    (agreement : Agrees identifier (some entry) found expiration) :
    ∃ stored, found = some stored ∧ IsVersionOf identifier entry stored := by
  cases agreement with
  | present version => exact ⟨_, rfl, version⟩

theorem expiration_eq {entry : Option Entry}
    (agreement : Agrees identifier entry found expiration) :
    expiration = entry.bind Entry.expiration := by
  cases agreement <;> rfl

end Agrees

section Readings

variable [Machine] {memory : Memory} {ledger : Ledger} (represents : memory.Represents ledger)
  {collection : Address} {identifier : String}

include represents

theorem Represents.document?_eq_none (absent : ledger (collection, identifier) = none) :
    memory.document? collection identifier = none :=
  (absent ▸ represents.agrees (collection, identifier)).found_eq_none

theorem Represents.exists_version {entry : Entry}
    (known : ledger (collection, identifier) = some entry) :
    ∃ stored, memory.document? collection identifier = some stored
      ∧ IsVersionOf identifier entry stored :=
  (known ▸ represents.agrees (collection, identifier)).exists_version

theorem Represents.isSome_document? :
    (memory.document? collection identifier).isSome = (ledger (collection, identifier)).isSome := by
  cases known : ledger (collection, identifier) with
  | none => simp [represents.document?_eq_none known]
  | some entry =>
      obtain ⟨stored, found, _⟩ := represents.exists_version known
      simp [found]

end Readings

section Preservation

variable [Machine] {memory after : Memory} {ledger : Ledger}

/-- The next version of a document continues what the ledger knows of it. -/
private theorem agrees_nextVersion (represents : memory.Represents ledger) {collection : Address}
    {identifier : String} {data : Tree} {stored : Json} (form : data.storedForm = .ok stored) :
    Agrees identifier
      ((Change.saved data (resultOf (memory.nextVersion collection identifier stored))).apply
        (ledger (collection, identifier)))
      (some (memory.nextVersion collection identifier stored))
      (Table.value? memory.expirations (collection, identifier)) := by
  have known := represents.agrees (collection, identifier)
  simp only [nextVersion, document?]
  generalize Table.value? memory.documents (collection, identifier) = found at known ⊢
  generalize Table.value? memory.expirations (collection, identifier) = expiration at known ⊢
  generalize ledger (collection, identifier) = entry at known ⊢
  cases known with
  | absent =>
      refine @Agrees.present _ identifier ⟨data, _, 1, none⟩ _ ?_
      exact ⟨rfl, rfl, form, rfl, rfl⟩
  | @present entry existing version =>
      refine @Agrees.present _ identifier ⟨data, _, entry.saves + 1, entry.expiration⟩ _ ?_
      exact ⟨rfl, rfl, form, congrArg (· + 1) version.generation_eq, rfl⟩

/-- Another expiration is no other version. -/
private theorem agrees_expires {identifier : String} {entry : Option Entry}
    {found : Option StoredDocument} {before expiration : Option String} (present : found.isSome)
    (known : Agrees identifier entry found before) :
    Agrees identifier ((Change.expires expiration).apply entry) found expiration := by
  cases known with
  | absent => cases present
  | @present entry stored version =>
      have same : IsVersionOf identifier { entry with expiration } stored :=
        ⟨version.identifier_eq, version.result_eq, version.form, version.generation_eq,
          version.revision_eq⟩
      exact .present same

/-- One request keeps the state of the engine in step with the ledger. -/
theorem Represents.record (represents : memory.Represents ledger)
    {change : Option ((Address × String) × Change)} (effect : memory.Effect change after) :
    after.Represents (ledger.record change) := by
  cases effect with
  | idle documents expirations _ =>
      refine ⟨documents ▸ represents.documentsDistinct,
        expirations ▸ represents.expirationsDistinct, fun key => ?_⟩
      rw [documents, expirations]
      exact represents.agrees key
  | @saved collection identifier data stored _ form documents expirations _ =>
      refine ⟨?_, ?_, fun key => ?_⟩
      · rw [documents]
        exact represents.documentsDistinct.put _ _
      · rw [expirations]
        exact represents.expirationsDistinct
      · rw [documents, expirations, Ledger.record_apply, Table.value?_put]
        by_cases same : (collection, identifier) = key
        · subst same
          rw [if_pos rfl, if_pos rfl]
          exact agrees_nextVersion represents form
        · rw [if_neg same, if_neg same]
          exact represents.agrees key
  | @removed collection identifier present =>
      refine ⟨represents.documentsDistinct.remove _, represents.expirationsDistinct.remove _,
        fun key => ?_⟩
      rw [forget, Ledger.record_apply, Table.value?_remove represents.documentsDistinct,
        Table.value?_remove represents.expirationsDistinct]
      by_cases same : (collection, identifier) = key
      · rw [if_pos same, if_pos same, if_pos same]
        exact .absent
      · rw [if_neg same, if_neg same, if_neg same]
        exact represents.agrees key
  | @expires collection identifier expiration _ present documents expirations _ =>
      have lookUp : ∀ key, Table.value? after.expirations key =
          if (collection, identifier) = key then expiration
          else Table.value? memory.expirations key := by
        intro key
        rw [expirations]
        cases expiration with
        | none => exact Table.value?_remove represents.expirationsDistinct _ _
        | some time => exact Table.value?_put _ _ _ _
      refine ⟨?_, ?_, fun key => ?_⟩
      · rw [documents]
        exact represents.documentsDistinct
      · rw [expirations]
        cases expiration with
        | none => exact represents.expirationsDistinct.remove _
        | some time => exact represents.expirationsDistinct.put _ _
      · rw [documents, lookUp, Ledger.record_apply]
        by_cases same : (collection, identifier) = key
        · subst same
          rw [if_pos rfl, if_pos rfl]
          exact agrees_expires present (represents.agrees (collection, identifier))
        · rw [if_neg same, if_neg same]
          exact represents.agrees key

/-- A run keeps the state of the engine in step with the ledger of its history. -/
theorem Represents.extend (represents : memory.Represents ledger)
    (requests : List (Request Tree)) :
    (memory.afterRun requests).Represents (ledger.extend (memory.history requests)) := by
  induction requests generalizing memory ledger with
  | nil => exact represents
  | cons request rest inductionHypothesis =>
      exact inductionHypothesis (represents.record (memory.effect_step request))

end Preservation

/-- After any run the engine represents the ledger of the run's history. -/
theorem represents_afterRun [Machine] (requests : List (Request Tree)) :
    (empty.afterRun requests).Represents (.ofHistory (empty.history requests)) :=
  represents_empty.extend requests

/-! ### The last request of a run -/

theorem ofHistory_append_singleton [Machine] (requests : List (Request Tree))
    (request : Request Tree) :
    Ledger.ofHistory (empty.history (requests ++ [request])) =
      (Ledger.ofHistory (empty.history requests)).record
        (Event.change? ⟨request, ((empty.afterRun requests).step request).1⟩) := by
  rw [ofHistory_append]
  rfl

/-- A save of a bag that can be stored is known afterwards, unless it was in conflict. -/
theorem exists_entry_of_save [Machine] (requests : List (Request Tree)) {collection : Address}
    {identifier : String} {data : Tree} {stored : Json} {control : Option ConcurrencyControl}
    {sequence : Int} (form : data.storedForm = .ok stored)
    (free : (empty.afterRun requests).hasConflict collection identifier control sequence = false) :
    ∃ entry, Ledger.ofHistory (empty.history
        (requests ++ [.save collection identifier data control sequence])) (collection, identifier) =
          some entry
      ∧ entry.data = data
      ∧ entry.result =
        resultOf ((empty.afterRun requests).nextVersion collection identifier stored) := by
  obtain ⟨contents, saving⟩ := save_of_storedForm_ok free form
  rw [ofHistory_append_singleton]
  simp only [step, saving]
  show ∃ entry, (Ledger.record _ (some ((collection, identifier), .saved data _)))
    (collection, identifier) = some entry ∧ _
  rw [Ledger.record_apply, if_pos rfl]
  cases Ledger.ofHistory (empty.history requests) (collection, identifier) with
  | none => exact ⟨_, rfl, rfl, rfl⟩
  | some entry => exact ⟨_, rfl, rfl, rfl⟩

/-! ### Counting -/

theorem mem_namesIn {α : Type} {table : Table (Address × String) α} {collection : Address}
    {name : String} :
    name ∈ namesIn table collection ↔ (Table.value? table (collection, name)).isSome := by
  have listed : name ∈ namesIn table collection ↔ (collection, name) ∈ Table.keys table := by
    simp [namesIn]
  rw [listed, ← Table.contains_iff, Table.contains]

theorem nodup_namesIn {α : Type} {table : Table (Address × String) α}
    (distinct : Table.Distinct table) (collection : Address) :
    (namesIn table collection).Nodup := by
  refine List.pairwise_map.2 ((List.Pairwise.filter _ distinct).imp_of_mem ?_)
  intro first second firstMember secondMember different same
  have firstIn : first.1 = collection := by simpa using (List.mem_filter.1 firstMember).2
  have secondIn : second.1 = collection := by simpa using (List.mem_filter.1 secondMember).2
  exact different (Prod.ext (firstIn.trans secondIn.symm) same)

/-- What the engine answers after any run, by the ledger of the history. A document is absent, or
it is the stored form of the bag of its last save, under the revision and the sequence that this
save returned, and its revision starts with the number of its saves. The count is that of the
documents present, and the expiration the one last set while the document was present. -/
theorem run_answers_as_ledger [Machine] (requests : List (Request Tree)) (collection : Address)
    (identifier : String) :
    let final := empty.afterRun requests
    let ledger := Ledger.ofHistory (empty.history requests)
    (match ledger (collection, identifier) with
      | none => (final.step (.getDocument collection identifier)).1 = .answer .nothing
      | some entry => ∃ stored revision,
          entry.data.storedForm = .ok stored
            ∧ entry.result.revision = some revision
            ∧ revision.toList.takeWhile (· ≠ '-') = Nat.toDigits 10 entry.saves
            ∧ (final.step (.getDocument collection identifier)).1 =
              .answer (.record ⟨identifier, entry.result.sequence, some revision, stored.draft⟩))
      ∧ (∃ present : List String, present.Nodup
          ∧ (∀ name, name ∈ present ↔ (ledger (collection, name)).isSome)
          ∧ (final.step (.getCount collection)).1 =
            .answer (.value (.value (.integer present.length))))
      ∧ (final.step (.getExpiration collection identifier)).1 =
        .answer (.value (.optionalText
          ((ledger (collection, identifier)).bind Entry.expiration))) := by
  intro final ledger
  have represents : final.Represents ledger := represents_afterRun requests
  refine ⟨?_, ⟨namesIn final.documents collection,
    nodup_namesIn represents.documentsDistinct collection, fun name => ?_, rfl⟩, ?_⟩
  · cases known : ledger (collection, identifier) with
    | none =>
        simp only [step, represents.document?_eq_none known]
    | some entry =>
        obtain ⟨stored, found, version⟩ := represents.exists_version known
        refine ⟨stored.data, stored.revision, version.form, ?_, ?_, ?_⟩
        · rw [version.result_eq, resultOf]
        · rw [version.revision_eq, takeWhile_revisionIdentifier, version.generation_eq]
        · simp only [step, found, Memory.record, version.identifier_eq, version.result_eq, resultOf]
  · rw [mem_namesIn, ← represents.isSome_document?, document?]
  · simp only [step, (represents.agrees (collection, identifier)).expiration_eq]

end DocumentStore.Memory
