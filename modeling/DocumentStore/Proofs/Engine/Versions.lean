import DocumentStore.Proofs.Engine.Sequences

/-!
Contract: sequences count the saves that succeed, and every version is filed as what it is.

Owns: the saves of a history that succeeded with their replies, the sequence each of them
returned, and the invariant of the stored versions: the identifier, the generation and the
revision of each.

Does not own: which requests succeed.
-/

set_option autoImplicit false

namespace DocumentStore

/-- What a save answered, if the event is a save that succeeded. -/
def Event.savedReply? : Event → Option Reply
  | ⟨.save _ _ _ _ _, ⟨.ok reply, _⟩⟩ => some reply
  | _ => none

theorem Event.savedReply?_of_change {event : Event} {key : Address × String} {data : Tree}
    {result : SaveResult} (changed : event.change? = some (key, .saved data result)) :
    event.savedReply? = some (.saved result) := by
  unfold Event.change? at changed
  split at changed
  · cases changed
    rfl
  all_goals cases changed

namespace Memory

/-- The replies of the saves that succeeded in a history, in their order. -/
def savedReplies (events : List Event) : List Reply :=
  events.filterMap Event.savedReply?

/-- A reply to a save that returns this sequence. -/
def Assigns (sequence : Nat) (reply : Reply) : Prop :=
  ∃ result, reply = .saved result ∧ result.sequence = sequence

/-! ### Sequences -/

section Counting

variable [Machine] {memory after : Memory} {change : Option ((Address × String) × Change)}

/-- Only saves use up a sequence. -/
theorem Effect.nextSequence_eq (effect : memory.Effect change after)
    (unsaved : ∀ key data result, change ≠ some (key, .saved data result)) :
    after.nextSequence = memory.nextSequence := by
  cases effect with
  | idle _ _ nextSequence => exact nextSequence
  | saved => exact absurd rfl (unsaved _ _ _)
  | removed _ => rfl
  | expires _ _ _ nextSequence => exact nextSequence

/-- A save that succeeds returns the next sequence and uses it up. -/
theorem assigns_of_save {collection : Address} {identifier : String} {data : Tree}
    {control : Option ConcurrencyControl} {sequence : Int} {reply : Reply}
    (accepted : (memory.step (.save collection identifier data control sequence)).1.result =
      .ok reply) :
    Assigns memory.nextSequence reply
      ∧ (memory.step (.save collection identifier data control sequence)).2.nextSequence =
        memory.nextSequence + 1 := by
  obtain ⟨form, storable⟩ := exists_storedForm_of_accepted accepted
  obtain ⟨contents, saving⟩ := save_of_storedForm_ok (hasConflict_of_accepted accepted) storable
  rw [step, saving] at accepted ⊢
  cases accepted
  exact ⟨⟨_, rfl, rfl⟩, rfl⟩

/-- One request uses up a sequence if it is a save that succeeds, and none otherwise. -/
theorem nextSequence_step (memory : Memory) (request : Request Tree) :
    match Event.savedReply? ⟨request, (memory.step request).1⟩ with
    | some reply => Assigns memory.nextSequence reply
        ∧ (memory.step request).2.nextSequence = memory.nextSequence + 1
    | none => (memory.step request).2.nextSequence = memory.nextSequence := by
  cases answered : Event.savedReply? ⟨request, (memory.step request).1⟩ with
  | none =>
      refine (memory.effect_step request).nextSequence_eq fun key data result changed => ?_
      rw [Event.savedReply?_of_change changed] at answered
      cases answered
  | some reply =>
      unfold Event.savedReply? at answered
      split at answered
      · next saving =>
          cases answered
          obtain ⟨rfl, outcome⟩ := Event.mk.inj saving
          exact assigns_of_save (congrArg Outcome.result outcome)
      · cases answered

end Counting

/-- In a run the saves that succeed return the sequences from the next one on, one after the
other, and the next sequence is the one after the last of them. -/
theorem nextSequence_afterRun [Machine] (memory : Memory) (requests : List (Request Tree)) :
    (∀ index reply, (savedReplies (memory.history requests))[index]? = some reply →
        Assigns (memory.nextSequence + index) reply)
      ∧ (memory.afterRun requests).nextSequence =
        memory.nextSequence + (savedReplies (memory.history requests)).length := by
  induction requests generalizing memory with
  | nil => exact ⟨fun index reply found => (by cases found), rfl⟩
  | cons request rest inductionHypothesis =>
      obtain ⟨later, final⟩ := inductionHypothesis (memory.step request).2
      have first := nextSequence_step memory request
      rw [history_cons, savedReplies, List.filterMap_cons, afterRun_cons]
      split at first
      · next reply answered =>
          obtain ⟨assigned, grown⟩ := first
          rw [answered]
          refine ⟨fun index other found => ?_, ?_⟩
          · cases index with
            | zero =>
                obtain rfl := Option.some.inj found
                exact assigned
            | succ index =>
                rw [Nat.add_comm index, ← Nat.add_assoc, ← grown]
                exact later index other found
          · rw [final, grown, List.length_cons, savedReplies]
            omega
      · next answered =>
          rw [answered]
          rw [first] at later final
          exact ⟨later, final⟩

/-! ### Records -/

/-- A version under the key of its own document, with the revision of its generation and data. -/
structure Filed (key : Address × String) (stored : StoredDocument) : Prop where
  identifier_eq : stored.identifier = key.2
  generation_pos : 1 ≤ stored.generation
  revision_eq : stored.revision = revisionIdentifier stored.generation stored.data

section Records

variable {memory after : Memory}

theorem filed_nextVersion (memory : Memory) (collection : Address) (identifier : String)
    (data : Json) :
    Filed (collection, identifier) (memory.nextVersion collection identifier data) := by
  refine ⟨rfl, ?_, rfl⟩
  rw [nextVersion]
  cases memory.document? collection identifier with
  | none => exact Nat.le_refl 1
  | some stored => exact Nat.le_add_left 1 stored.generation

/-- Every stored version is filed. -/
def AllFiled (memory : Memory) : Prop :=
  ∀ key stored, Table.value? memory.documents key = some stored → Filed key stored

variable [Machine]

theorem AllFiled.step (allFiled : memory.AllFiled) (distinct : Table.Distinct memory.documents)
    {change : Option ((Address × String) × Change)} (effect : memory.Effect change after) :
    after.AllFiled := by
  intro key stored found
  cases effect with
  | idle documents _ _ => exact allFiled key stored (documents ▸ found)
  | expires _ documents _ _ => exact allFiled key stored (documents ▸ found)
  | removed _ =>
      rw [forget, Table.value?_remove distinct] at found
      split at found
      · cases found
      · exact allFiled key stored found
  | @saved collection identifier data form after _ documents _ _ =>
      rw [documents, Table.value?_put] at found
      split at found
      · next same =>
          obtain rfl := Option.some.inj found
          exact same ▸ filed_nextVersion memory collection identifier form
      · exact allFiled key stored found

theorem AllFiled.afterRun {ledger : Ledger} (allFiled : memory.AllFiled)
    (represents : memory.Represents ledger) (requests : List (Request Tree)) :
    (memory.afterRun requests).AllFiled := by
  induction requests generalizing memory ledger with
  | nil => exact allFiled
  | cons request rest inductionHypothesis =>
      have effect := memory.effect_step request
      exact inductionHypothesis (allFiled.step represents.documentsDistinct effect)
        (represents.record effect)

theorem allFiled_afterRun (requests : List (Request Tree)) : (empty.afterRun requests).AllFiled :=
  AllFiled.afterRun (fun key stored found => by cases found) represents_empty requests

end Records

/-- The versions that stand in a table of distinct keys carry distinct sequences. -/
theorem Sequenced.nodup_sequences {memory : Memory} (sequenced : memory.Sequenced) :
    (memory.documents.map fun entry => entry.2.sequence).Nodup := by
  refine List.pairwise_map.2 ((List.pairwise_map.1 sequenced.distinct).imp_of_mem ?_)
  intro first second firstMember secondMember different same
  exact different (sequenced.apart
    ((Table.value?_eq_some_iff sequenced.distinct).2 firstMember)
    ((Table.value?_eq_some_iff sequenced.distinct).2 secondMember) same)

/-- After any run: the saves that succeeded returned the sequences 1, 2, 3 and so on, over all
collections, and the next sequence is the one after the last. The stored versions have distinct
keys and distinct sequences, each of them a sequence that was returned, and every version stands
under its own identifier with the revision of its generation and its data. -/
theorem run_counts_versions [Machine] (requests : List (Request Tree)) :
    let final := empty.afterRun requests
    let replies := savedReplies (empty.history requests)
    (∀ index reply, replies[index]? = some reply → Assigns (index + 1) reply)
      ∧ final.nextSequence = replies.length + 1
      ∧ Table.Distinct final.documents
      ∧ (final.documents.map fun entry => entry.2.sequence).Nodup
      ∧ ∀ collection identifier stored, ((collection, identifier), stored) ∈ final.documents →
          1 ≤ stored.sequence
            ∧ stored.sequence < final.nextSequence
            ∧ stored.identifier = identifier
            ∧ 1 ≤ stored.generation
            ∧ stored.revision = revisionIdentifier stored.generation stored.data := by
  intro final replies
  obtain ⟨assigned, next⟩ := nextSequence_afterRun empty requests
  have sequenced : final.Sequenced := sequenced_afterRun requests
  refine ⟨fun index reply found => ?_, ?_, sequenced.distinct, sequenced.nodup_sequences, ?_⟩
  · rw [Nat.add_comm]
    exact assigned index reply found
  · rw [Nat.add_comm]
    exact next
  · intro collection identifier stored member
    have found := (Table.value?_eq_some_iff sequenced.distinct).2 member
    obtain ⟨positive, bounded⟩ := sequenced.bounded found
    have filed : Filed (collection, identifier) stored := allFiled_afterRun requests _ _ found
    exact ⟨positive, bounded, filed.identifier_eq, filed.generation_pos, filed.revision_eq⟩

end Memory

end DocumentStore
