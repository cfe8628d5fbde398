import DocumentStore.Proofs.Engine.Refinement

/-!
Contract: the registry of indexes holds what was last done to each index.

Owns: what an event does to an index, the last that a history did to one, what one request does to
the registry, and that after any run the registry holds the copies of the definitions that were
created last and not deleted since, with their names in order.

Does not own: how definitions are made.
-/

set_option autoImplicit false

namespace DocumentStore

/-! ### The last change of an index -/

/-- What a request that succeeded did to an index. -/
inductive Indexing where
  | created (definition : Tree)
  | deleted

/-- The index that an event created or deleted. Failures and other requests do neither. -/
def Event.indexing? : Event → Option ((Address × String) × Indexing)
  | ⟨.createIndex collection name definition, ⟨.ok _, _⟩⟩ =>
      some ((collection, name), .created definition)
  | ⟨.deleteIndex collection name, ⟨.ok _, _⟩⟩ => some ((collection, name), .deleted)
  | _ => none

/-- What an event did to one index. -/
def Event.indexingOf? (key : Address × String) (event : Event) : Option Indexing :=
  match event.indexing? with
  | some (other, indexing) => if other = key then some indexing else none
  | none => none

/-- The last that was done to an index. -/
def lastIndexing (events : List Event) (key : Address × String) : Option Indexing :=
  (events.filterMap (Event.indexingOf? key)).getLast?

theorem lastIndexing_append (events more : List Event) (key : Address × String) :
    lastIndexing (events ++ more) key = (lastIndexing more key).or (lastIndexing events key) := by
  simp [lastIndexing, List.getLast?_append]

/-- Events that leave an index alone do not change what was last done to it. -/
theorem lastIndexing_append_of_silent (events : List Event) {more : List Event}
    {key : Address × String} (silent : ∀ event ∈ more, event.indexingOf? key = none) :
    lastIndexing (events ++ more) key = lastIndexing events key := by
  have none : more.filterMap (Event.indexingOf? key) = [] := List.filterMap_eq_nil_iff.2 silent
  rw [lastIndexing_append, lastIndexing, none]
  rfl

/-- The index is there, and this is its definition. -/
def IsCreated (last : Option Indexing) : Prop :=
  ∃ definition, last = some (.created definition)

namespace Memory

/-! ### One request -/

/-- What a request that did something to an index, or to none, did to the registry. -/
inductive IndexEffect (memory : Memory) :
    Option ((Address × String) × Indexing) → Memory → Prop where
  | idle {after : Memory} (indexes : after.indexes = memory.indexes) : IndexEffect memory none after
  | created {key : Address × String} {definition : Tree} {copied : Json} {after : Memory}
      (copying : definition.throughText false = .ok copied)
      (indexes : after.indexes = Table.put memory.indexes key copied) :
      IndexEffect memory (some (key, .created definition)) after
  | deleted {key : Address × String} {after : Memory}
      (indexes : after.indexes = Table.remove memory.indexes key) :
      IndexEffect memory (some (key, .deleted)) after

/-- Every request has the effect on the registry that its outcome says. -/
theorem indexEffect_step [Machine] (memory : Memory) (request : Request Tree) :
    memory.IndexEffect (Event.indexing? ⟨request, (memory.step request).1⟩)
      (memory.step request).2 := by
  cases request with
  | save collection identifier data control sequence =>
      apply IndexEffect.idle
      show (memory.save collection identifier data control sequence).2.indexes = memory.indexes
      cases conflict : memory.hasConflict collection identifier control sequence with
      | true => rw [save_of_conflict conflict]
      | false =>
          cases form : data.storedForm with
          | error failure =>
              obtain ⟨contents, saving⟩ := save_of_storedForm_error conflict form
              rw [saving]
          | ok stored =>
              obtain ⟨contents, saving⟩ := save_of_storedForm_ok conflict form
              rw [saving]
  | getDocument collection identifier =>
      apply IndexEffect.idle
      simp only [step]
      split <;> rfl
  | deleteDocument collection identifier control sequence =>
      apply IndexEffect.idle
      simp only [step, delete]
      split
      · rfl
      · split <;> rfl
  | purgeDocument collection identifier =>
      apply IndexEffect.idle
      simp only [step, purge]
      split <;> rfl
  | createIndex collection name definition =>
      simp only [step, createIndex]
      cases copying : definition.throughText false with
      | error failure => exact .idle rfl
      | ok copied => exact .created copying rfl
  | deleteIndex collection name => exact .deleted rfl
  | setExpiration collection identifier expiration =>
      apply IndexEffect.idle
      simp only [step, setExpiration]
      split
      · rfl
      · split <;> rfl
  | _ => exact .idle rfl

/-! ### Runs -/

/-- The definition that the registry holds of an index, by what was last done to it: the copy of the
definition that created it, or none. -/
inductive Registers : Option Indexing → Option Json → Prop where
  | unknown : Registers none none
  | created {definition : Tree} {copied : Json}
      (copying : definition.throughText false = .ok copied) :
      Registers (some (.created definition)) (some copied)
  | deleted : Registers (some .deleted) none

theorem Registers.isSome_iff {last : Option Indexing} {held : Option Json}
    (registers : Registers last held) : held.isSome ↔ IsCreated last := by
  cases registers with
  | created copying => simp [IsCreated]
  | _ => simp [IsCreated]

/-- The registry holds what was last done to each index. -/
structure HoldsIndexes (memory : Memory) (last : Address × String → Option Indexing) : Prop where
  distinct : Table.Distinct memory.indexes
  registers : ∀ key, Registers (last key) (Table.value? memory.indexes key)

theorem holdsIndexes_empty : empty.HoldsIndexes fun _ => none :=
  ⟨List.nodup_nil, fun _ => .unknown⟩

/-- One request keeps the registry in step with what was last done to each index. -/
theorem HoldsIndexes.record {memory after : Memory} {last : Address × String → Option Indexing}
    (holds : memory.HoldsIndexes last) {event : Event}
    (effect : memory.IndexEffect event.indexing? after) :
    after.HoldsIndexes fun key => (event.indexingOf? key).or (last key) := by
  unfold Event.indexingOf?
  generalize event.indexing? = indexing at effect ⊢
  cases effect with
  | idle indexes =>
      constructor
      · exact indexes ▸ holds.distinct
      · exact fun key => indexes ▸ holds.registers key
  | @created name definition copied after copying indexes =>
      constructor
      · exact indexes ▸ holds.distinct.put _ _
      · intro key
        rw [indexes, Table.value?_put]
        by_cases same : name = key
        · simpa [same] using Registers.created copying
        · simpa [same] using holds.registers key
  | @deleted name after indexes =>
      constructor
      · exact indexes ▸ holds.distinct.remove _
      · intro key
        rw [indexes, Table.value?_remove holds.distinct]
        by_cases same : name = key
        · simpa [same] using Registers.deleted
        · simpa [same] using holds.registers key

/-- After any run the registry holds what the run last did to each index. -/
theorem holdsIndexes_afterRun [Machine] (requests : List (Request Tree)) :
    (empty.afterRun requests).HoldsIndexes (lastIndexing (empty.history requests)) := by
  suffices runs : ∀ (memory : Memory) (events : List Event), memory.HoldsIndexes (lastIndexing events) →
      (memory.afterRun requests).HoldsIndexes (lastIndexing (events ++ memory.history requests)) by
    have fromStart := runs empty [] holdsIndexes_empty
    exact fromStart
  induction requests with
  | nil =>
      intro memory events holds
      rw [history_nil, List.append_nil]
      exact holds
  | cons request rest inductionHypothesis =>
      intro memory events holds
      have stepped := holds.record (memory.indexEffect_step request)
      rw [history_cons, List.append_cons]
      apply inductionHypothesis
      have recorded : (fun key => (Event.indexingOf? key ⟨request, (memory.step request).1⟩).or
          (lastIndexing events key)) = lastIndexing (events ++ [⟨request, (memory.step request).1⟩]) := by
        funext key
        rw [lastIndexing_append]
        cases change : Event.indexingOf? key ⟨request, (memory.step request).1⟩ <;>
          simp [lastIndexing, change]
      rw [← recorded]
      exact stepped

/-! ### Names -/

theorem pairwise_inOrder {names : List String} (nodup : names.Nodup) :
    (inOrder names).Pairwise (· < ·) := by
  have sorted : (inOrder names).Pairwise (· ≤ ·) := by
    have ordered := @List.pairwise_mergeSort String (fun left right => decide (left ≤ right))
      (fun first second third => by simpa using String.le_trans)
      (fun first second => by simpa using String.le_total first second) names
    simpa [inOrder] using ordered
  have apart : (inOrder names).Nodup := (List.mergeSort_perm names _).nodup_iff.2 nodup
  exact sorted.imp₂ (fun first second => Std.lt_of_le_of_ne) apart

theorem mem_indexNames {memory : Memory} {collection : Address} {name : String} :
    name ∈ memory.indexNames collection ↔
      (Table.value? memory.indexes (collection, name)).isSome := by
  rw [indexNames, inOrder, (List.mergeSort_perm _ _).mem_iff, mem_namesIn]

/-- The names of the indexes of a collection stand in strictly ascending order, and they are those
of the indexes that were created last and not deleted since. -/
theorem indexNames_afterRun [Machine] (requests : List (Request Tree)) (collection : Address) :
    ((empty.afterRun requests).indexNames collection).Pairwise (· < ·)
      ∧ ∀ name, name ∈ (empty.afterRun requests).indexNames collection ↔
        IsCreated (lastIndexing (empty.history requests) (collection, name)) := by
  have holds := holdsIndexes_afterRun requests
  constructor
  · exact pairwise_inOrder (nodup_namesIn holds.distinct collection)
  · intro name
    rw [mem_indexNames]
    exact (holds.registers _).isSome_iff

/-- Deleting an index that is not there changes nothing. -/
theorem step_deleteIndex_of_absent [Machine] {memory : Memory} {collection : Address}
    {name : String} (absent : name ∉ memory.indexNames collection) :
    memory.step (.deleteIndex collection name) = (.answer .nothing, memory) := by
  have unknown : (collection, name) ∉ Table.keys memory.indexes := by
    rw [mem_indexNames, Option.not_isSome_iff_eq_none, Table.value?_eq_none_iff] at absent
    exact absent
  simp only [step, Table.remove_of_not_mem unknown]

end Memory

end DocumentStore
