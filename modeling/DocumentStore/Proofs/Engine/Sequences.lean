import DocumentStore.Proofs.Engine.Refinement

/-!
Contract: sequences identify versions.

Owns: the invariant that the live versions carry distinct sequences below the next one, and
what follows for versions that were seen earlier in a run; the outcome of changes that fail
on conflict.

Does not own: how clients come by the sequences they use.
-/

set_option autoImplicit false

namespace DocumentStore.Memory

/-- Every live version carries a sequence of its own, assigned before the next one. -/
structure Sequenced (memory : Memory) : Prop where
  distinct : Table.Distinct memory.documents
  positive : 0 < memory.nextSequence
  bounded : ∀ {key : Address × String} {stored : StoredDocument},
    Table.value? memory.documents key = some stored →
      0 < stored.sequence ∧ stored.sequence < memory.nextSequence
  apart : ∀ {key other : Address × String} {first second : StoredDocument},
    Table.value? memory.documents key = some first →
      Table.value? memory.documents other = some second →
        first.sequence = second.sequence → key = other

theorem sequenced_empty : Sequenced empty where
  distinct := List.nodup_nil
  positive := Nat.one_pos
  bounded := fun found => by simp [empty] at found
  apart := fun found => by simp [empty] at found

section Steps

variable [Machine] {memory after : Memory} {change : Option ((Address × String) × Change)}

theorem Effect.nextSequence_le (effect : memory.Effect change after) :
    memory.nextSequence ≤ after.nextSequence := by
  cases effect with
  | idle _ _ nextSequence => exact Nat.le_of_eq nextSequence.symm
  | saved _ _ _ nextSequence => rw [nextSequence]; exact Nat.le_succ _
  | removed _ => exact Nat.le_refl _
  | expires _ _ _ nextSequence => exact Nat.le_of_eq nextSequence.symm

/-- A version found after a request either was there before, or it is the one that the request
made and carries the sequence that was the next one. -/
theorem Effect.origin (effect : memory.Effect change after)
    (distinct : Table.Distinct memory.documents) {key : Address × String} {stored : StoredDocument}
    (found : Table.value? after.documents key = some stored) :
    Table.value? memory.documents key = some stored
      ∨ (stored.sequence = memory.nextSequence ∧ after.nextSequence = memory.nextSequence + 1
        ∧ ∀ other, other ≠ key →
          Table.value? after.documents other = Table.value? memory.documents other) := by
  cases effect with
  | idle documents _ _ => exact .inl (documents ▸ found)
  | expires _ documents _ _ => exact .inl (documents ▸ found)
  | @removed collection identifier _ =>
      rw [forget, Table.value?_remove distinct] at found
      split at found
      · cases found
      · exact .inl found
  | @saved collection identifier data form after _ documents _ nextSequence =>
      rw [documents, Table.value?_put] at found
      split at found
      · next same =>
          obtain rfl := Option.some.inj found
          refine .inr ⟨rfl, nextSequence, fun other different => ?_⟩
          rw [documents, Table.value?_put, if_neg]
          rw [same]
          exact different.symm
      · exact .inl found

theorem Sequenced.step (sequenced : memory.Sequenced) (effect : memory.Effect change after)
    (distinct : Table.Distinct after.documents) : after.Sequenced := by
  have grows := effect.nextSequence_le
  refine ⟨distinct, Nat.lt_of_lt_of_le sequenced.positive grows, ?_, ?_⟩
  · intro key stored found
    rcases effect.origin sequenced.distinct found with old | ⟨fresh, next, _⟩
    · have bounds := sequenced.bounded old
      exact ⟨bounds.1, Nat.lt_of_lt_of_le bounds.2 grows⟩
    · have positive := sequenced.positive
      omega
  · intro key other first second foundFirst foundSecond same
    rcases effect.origin sequenced.distinct foundFirst with oldFirst | ⟨freshFirst, _, restFirst⟩
    · rcases effect.origin sequenced.distinct foundSecond with oldSecond | ⟨freshSecond, _, _⟩
      · exact sequenced.apart oldFirst oldSecond same
      · have bounds := sequenced.bounded oldFirst
        omega
    · refine Classical.byContradiction fun different => ?_
      rw [restFirst other (Ne.symm different)] at foundSecond
      have bounds := sequenced.bounded foundSecond
      omega

end Steps

section Runs

variable {memory : Memory}

theorem Sequenced.afterRun [Machine] {ledger : Ledger} (sequenced : memory.Sequenced)
    (represents : memory.Represents ledger) (requests : List (Request Tree)) :
    (memory.afterRun requests).Sequenced := by
  induction requests generalizing memory ledger with
  | nil => exact sequenced
  | cons request rest inductionHypothesis =>
      have effect := memory.effect_step request
      have next := represents.record effect
      exact inductionHypothesis (sequenced.step effect next.documentsDistinct) next

/-- A version that stands after a run and has a sequence from before it stood there all along. -/
theorem document?_before_run [Machine] {ledger : Ledger} (sequenced : memory.Sequenced)
    (represents : memory.Represents ledger) (requests : List (Request Tree))
    {key : Address × String} {stored : StoredDocument}
    (found : Table.value? (memory.afterRun requests).documents key = some stored)
    (earlier : stored.sequence < memory.nextSequence) :
    Table.value? memory.documents key = some stored := by
  induction requests generalizing memory ledger with
  | nil => exact found
  | cons request rest inductionHypothesis =>
      have effect := memory.effect_step request
      have next := represents.record effect
      have between := inductionHypothesis (sequenced.step effect next.documentsDistinct) next found
        (Nat.lt_of_lt_of_le earlier effect.nextSequence_le)
      rcases effect.origin sequenced.distinct between with old | ⟨fresh, _, _⟩
      · exact old
      · omega

end Runs

theorem nextSequence_le_afterRun [Machine] (memory : Memory) (requests : List (Request Tree)) :
    memory.nextSequence ≤ (memory.afterRun requests).nextSequence := by
  induction requests generalizing memory with
  | nil => exact Nat.le_refl _
  | cons request rest inductionHypothesis =>
      exact Nat.le_trans (memory.effect_step request).nextSequence_le (inductionHypothesis _)

theorem sequenced_afterRun [Machine] (requests : List (Request Tree)) :
    (empty.afterRun requests).Sequenced :=
  sequenced_empty.afterRun represents_empty requests

theorem nextSequence_le_append [Machine] (requests more : List (Request Tree)) :
    (empty.afterRun requests).nextSequence ≤ (empty.afterRun (requests ++ more)).nextSequence := by
  rw [afterRun_append]
  exact nextSequence_le_afterRun _ more

/-- The current sequence of a document was assigned before the next one. -/
theorem sequence_of_known [Machine] {requests : List (Request Tree)} {key : Address × String}
    {entry : Entry} (known : Ledger.ofHistory (empty.history requests) key = some entry) :
    ∃ sequence : Nat, entry.result.sequence = sequence ∧ 0 < sequence
      ∧ sequence < (empty.afterRun requests).nextSequence := by
  obtain ⟨stored, found, version⟩ := (represents_afterRun requests).exists_version known
  have bounds := (sequenced_afterRun requests).bounded found
  exact ⟨stored.sequence, by rw [version.result_eq, resultOf], bounds⟩

/-- A sequence that was in use earlier in a run is the current one of a document only where it
was the document's own, and only if the same version stood there ever since. -/
theorem version_since [Machine] {earlier later : List (Request Tree)} {key other : Address × String}
    {entry otherEntry : Entry}
    (known : Ledger.ofHistory (empty.history (earlier ++ later)) key = some entry)
    (otherKnown : Ledger.ofHistory (empty.history earlier) other = some otherEntry)
    (same : otherEntry.result.sequence = entry.result.sequence) :
    other = key ∧ ∀ middle rest, later = middle ++ rest →
      (empty.afterRun (earlier ++ middle)).document? key.1 key.2 =
        (empty.afterRun (earlier ++ later)).document? key.1 key.2 := by
  obtain ⟨stored, found, version⟩ := (represents_afterRun (earlier ++ later)).exists_version known
  obtain ⟨otherStored, otherFound, otherVersion⟩ :=
    (represents_afterRun earlier).exists_version otherKnown
  have sequences : otherStored.sequence = stored.sequence := by
    rw [version.result_eq, otherVersion.result_eq] at same
    exact Int.ofNat.inj same
  have old : stored.sequence < (empty.afterRun earlier).nextSequence :=
    sequences ▸ ((sequenced_afterRun earlier).bounded otherFound).2
  have since : ∀ middle rest, later = middle ++ rest →
      (empty.afterRun (earlier ++ middle)).document? key.1 key.2 = some stored := by
    rintro middle rest rfl
    rw [← List.append_assoc, afterRun_append] at found
    have grown := (empty.afterRun earlier).nextSequence_le_afterRun middle
    rw [← afterRun_append] at grown
    exact document?_before_run (sequenced_afterRun _) (represents_afterRun _) rest found
      (Nat.lt_of_lt_of_le old grown)
  constructor
  · have first := since [] later rfl
    rw [List.append_nil] at first
    exact (sequenced_afterRun earlier).apart otherFound first sequences
  · intro middle rest split
    rw [since middle rest split]
    exact found.symm

/-! ### Changes that fail on conflict -/

/-- Attempts with different sequences at changing a document: the one with its current sequence
succeeds, every other one is a conflict. -/
def OnlyCurrentPasses (identifier : String) (current : Int) (attempt : Int → Outcome) : Prop :=
  ∀ sequence,
    ((∃ reply, (attempt sequence).result = .ok reply) ↔ sequence = current)
      ∧ (sequence ≠ current →
        (attempt sequence).result = .error (.database (.conflict identifier)))

section Conflicts

variable {memory : Memory} {collection : Address} {identifier : String} {stored : StoredDocument}

theorem isConflict_failOnConflict (stored : StoredDocument) (sequence : Int) :
    isConflict stored (some .failOnConflict) sequence = decide (sequence ≠ stored.sequence) := by
  by_cases current : sequence = stored.sequence
  · simp [isConflict, current]
  · have other : (stored.sequence : Int) ≠ sequence := Ne.symm current
    simp [isConflict, current, other]

variable [Machine]

/-- A save is accepted only if it is in no conflict. -/
theorem hasConflict_of_accepted {data : Tree} {control : Option ConcurrencyControl}
    {sequence : Int} {reply : Reply}
    (accepted : (memory.step (.save collection identifier data control sequence)).1.result =
      .ok reply) :
    memory.hasConflict collection identifier control sequence = false := by
  refine Bool.eq_false_iff.2 fun conflict => ?_
  simp only [step, save_of_conflict conflict] at accepted
  cases accepted

/-- A save is accepted only if its bag can be stored. -/
theorem exists_storedForm_of_accepted {data : Tree} {control : Option ConcurrencyControl}
    {sequence : Int} {reply : Reply}
    (accepted : (memory.step (.save collection identifier data control sequence)).1.result =
      .ok reply) :
    ∃ form, data.storedForm = .ok form := by
  cases form : data.storedForm with
  | ok json => exact ⟨json, rfl⟩
  | error failure =>
      obtain ⟨contents, saving⟩ :=
        save_of_storedForm_error (hasConflict_of_accepted accepted) form
      simp only [step, saving] at accepted
      cases accepted

theorem exists_reply_of_storedForm {data : Tree} {control : Option ConcurrencyControl}
    {sequence : Int} {form : Json}
    (free : memory.hasConflict collection identifier control sequence = false)
    (storable : data.storedForm = .ok form) :
    ∃ reply, (memory.step (.save collection identifier data control sequence)).1.result =
      .ok reply := by
  obtain ⟨contents, saving⟩ := save_of_storedForm_ok free storable
  simp only [step, saving]
  exact ⟨_, rfl⟩

theorem hasConflict_of_known {requests : List (Request Tree)} {entry : Entry}
    (known : Ledger.ofHistory (empty.history requests) (collection, identifier) = some entry)
    (sequence : Int) :
    (empty.afterRun requests).hasConflict collection identifier (some .failOnConflict) sequence =
      decide (sequence ≠ entry.result.sequence) := by
  obtain ⟨stored, found, version⟩ := (represents_afterRun requests).exists_version known
  rw [hasConflict, found, Option.any_some, isConflict_failOnConflict, version.result_eq, resultOf]

theorem onlyCurrentPasses_delete (found : memory.document? collection identifier = some stored) :
    OnlyCurrentPasses identifier stored.sequence fun sequence =>
      (memory.step (.deleteDocument collection identifier (some .failOnConflict) sequence)).1 := by
  intro sequence
  simp only [step, delete, found, isConflict_failOnConflict]
  by_cases current : sequence = stored.sequence
  · simp [current, outcome, Except.map]
  · simp [current, outcome, Except.map]

theorem onlyCurrentPasses_save (found : memory.document? collection identifier = some stored)
    {data : Tree} {form : Json} (storable : data.storedForm = .ok form) :
    OnlyCurrentPasses identifier stored.sequence fun sequence =>
      (memory.step (.save collection identifier data (some .failOnConflict) sequence)).1 := by
  intro sequence
  have check : memory.hasConflict collection identifier (some .failOnConflict) sequence
      = decide (sequence ≠ stored.sequence) := by
    rw [hasConflict, found, Option.any_some, isConflict_failOnConflict]
  by_cases current : sequence = stored.sequence
  · rw [decide_eq_false (not_not_intro current)] at check
    exact ⟨⟨fun _ => current, fun _ => exists_reply_of_storedForm check storable⟩,
      fun other => absurd current other⟩
  · rw [decide_eq_true current] at check
    simp only [step, save_of_conflict check]
    refine ⟨⟨fun passed => ?_, fun same => absurd same current⟩, fun _ => rfl⟩
    obtain ⟨reply, answered⟩ := passed
    cases answered

end Conflicts

end DocumentStore.Memory
