import DocumentStore.Proofs.Engine.Versions
import DocumentStore.Proofs.Workspace.Conflicts

/-!
Contract: what becomes of a save whose document was removed after its client saw it.

Owns: the sequences under which clients see documents, and how a save that fails on conflict
goes with a sequence from before a removal.

Does not own: saves with the sequence of a version that still stands.

The conflict check compares with the version that is stored. Once the document was created again
the sequence from before is refused; while there is none there is nothing to compare with, and the
save makes a new document.
-/

set_option autoImplicit false

namespace DocumentStore

/-- The document that an event shows to its client, and the sequence it shows it under: that of
the record it loads, or the one its save returns. -/
def Event.shown? : Event → Option ((Address × String) × Int)
  | ⟨.save collection identifier _ _ _, ⟨.ok (.saved result), _⟩⟩ =>
      some ((collection, identifier), result.sequence)
  | ⟨.getDocument collection identifier, ⟨.ok (.record record), _⟩⟩ =>
      some ((collection, identifier), record.sequence)
  | _ => none

namespace Memory

/-- One more request after a run, and how it goes. -/
def eventAfter [Machine] (requests : List (Request Tree)) (request : Request Tree) : Event :=
  ⟨request, ((empty.afterRun requests).step request).1⟩

section Sight

variable [Machine]
  {requests : List (Request Tree)} {request : Request Tree} {key : Address × String}
  {sequence : Int}

/-- A sequence that a client saw was assigned. -/
theorem sequence_of_shown (shown : (eventAfter requests request).shown? = some (key, sequence)) :
    ∃ assigned : Nat, sequence = assigned ∧ 0 < assigned
      ∧ assigned < (empty.afterRun (requests ++ [request])).nextSequence := by
  have sequenced := sequenced_afterRun requests
  rw [afterRun_append, afterRun_cons, afterRun_nil]
  unfold Event.shown? at shown
  split at shown
  · next saving =>
      cases shown
      obtain ⟨rfl, answer⟩ := Event.mk.inj saving
      obtain ⟨⟨result, same, assigned⟩, next⟩ := assigns_of_save (congrArg Outcome.result answer)
      cases same
      rw [next]
      exact ⟨_, assigned, sequenced.positive, Nat.lt_succ_self _⟩
  · next collection identifier record log loading =>
      cases shown
      obtain ⟨rfl, answer⟩ := Event.mk.inj loading
      rw [step] at answer ⊢
      cases found : (empty.afterRun requests).document? collection identifier with
      | none =>
          rw [found] at answer
          cases answer
      | some stored =>
          rw [found] at answer
          cases answer
          exact ⟨stored.sequence, rfl, sequenced.bounded found⟩
  · cases shown

/-- A document that is there can be removed by whoever overwrites. -/
theorem removed_of_present {collection : Address} {identifier : String}
    (present : ((empty.afterRun requests).document? collection identifier).isSome) :
    (eventAfter requests (.deleteDocument collection identifier none 0)).change? =
        some ((collection, identifier), .removed)
      ∧ (eventAfter requests (.purgeDocument collection identifier)).change? =
        some ((collection, identifier), .removed) := by
  obtain ⟨stored, found⟩ := Option.isSome_iff_exists.1 present
  constructor
  · rw [eventAfter, step, delete, found]
    rfl
  · rw [eventAfter, step, purge, found]
    rfl

/-- Right after its removal a document is not there. -/
theorem absent_after_removal
    (removed : (eventAfter requests request).change? = some (key, .removed)) :
    Table.value? (empty.afterRun (requests ++ [request])).documents key = none := by
  refine (represents_afterRun (requests ++ [request])).document?_eq_none ?_
  rw [ofHistory_append_singleton]
  change (Ledger.ofHistory _).record (eventAfter requests request).change? key = none
  rw [removed, Ledger.record_apply, if_pos rfl, Change.apply]

end Sight

section Removals

variable [Machine] {first middle : List (Request Tree)} {reading removing : Request Tree}
  {collection : Address} {identifier : String} {sequence : Int}
  (seen : (eventAfter first reading).shown? = some ((collection, identifier), sequence))
  (removed : (eventAfter (first ++ reading :: middle) removing).change? =
    some ((collection, identifier), .removed))
  (last : List (Request Tree))

include seen in
theorem sequence_lt_after (last : List (Request Tree)) :
    ∃ assigned : Nat, sequence = assigned ∧ 0 < assigned
      ∧ assigned < (empty.afterRun (first ++ reading :: last)).nextSequence := by
  obtain ⟨assigned, same, positive, bounded⟩ := sequence_of_shown seen
  have grown := nextSequence_le_append (first ++ [reading]) last
  rw [List.append_assoc, List.singleton_append] at grown
  exact ⟨assigned, same, positive, Nat.lt_of_lt_of_le bounded grown⟩

include seen removed

/-- A version that stands after the removal of a document carries another sequence than those
that were seen before. -/
theorem other_sequence_after_removal {entry : Entry}
    (known : Ledger.ofHistory
      (empty.history (first ++ reading :: middle ++ removing :: last)) (collection, identifier) =
        some entry) :
    sequence ≠ entry.result.sequence := by
  intro same
  rw [List.append_cons _ removing] at known
  obtain ⟨stored, found, version⟩ := (represents_afterRun _).exists_version known
  obtain ⟨assigned, rfl, _, bounded⟩ := sequence_lt_after seen (middle ++ [removing])
  rw [← List.cons_append, ← List.append_assoc] at bounded
  have own : assigned = stored.sequence := by
    rw [version.result_eq] at same
    exact Int.ofNat.inj same
  rw [afterRun_append] at found
  have stood := document?_before_run (sequenced_afterRun _) (represents_afterRun _) last found
    (own ▸ bounded)
  rw [absent_after_removal removed] at stood
  cases stood

/-- A version that stands after the removal of a document is in conflict with each sequence that
was seen before. -/
theorem hasConflict_after_removal {entry : Entry}
    (known : Ledger.ofHistory
      (empty.history (first ++ reading :: middle ++ removing :: last)) (collection, identifier) =
        some entry) :
    (empty.afterRun (first ++ reading :: middle ++ removing :: last)).hasConflict collection identifier
      (some .failOnConflict) sequence = true := by
  rw [hasConflict_of_known known sequence]
  exact decide_eq_true (other_sequence_after_removal seen removed last known)

end Removals

section Absence

variable [Machine] {requests : List (Request Tree)} {collection : Address} {identifier : String}
  (absent : (empty.afterRun requests).document? collection identifier = none)

include absent

/-- There is nothing to be in conflict with where a document is not there. -/
theorem hasConflict_of_absent (control : Option ConcurrencyControl) (sequence : Int) :
    (empty.afterRun requests).hasConflict collection identifier control sequence = false := by
  rw [hasConflict, absent, Option.any_none]

/-- A save of a document that is not there goes the same with every sequence, whether it is to fail
on conflict or not. -/
theorem step_save_of_absent (data : Tree) (control other : Option ConcurrencyControl)
    (sequence otherSequence : Int) :
    (empty.afterRun requests).step (.save collection identifier data control sequence) =
      (empty.afterRun requests).step (.save collection identifier data other otherSequence) := by
  simp only [step, save, absent, Option.any_none]

/-- A save of a document that is not there makes the first version of a new one. -/
theorem first_version_of_absent {data : Tree} {form : Json} (storable : data.storedForm = .ok form)
    (control : Option ConcurrencyControl) (sequence : Int) :
    ((empty.afterRun requests).step (.save collection identifier data control sequence)).1 =
      .answer (.saved ⟨identifier, some (revisionIdentifier 1 form),
        (empty.afterRun requests).nextSequence⟩) := by
  obtain ⟨contents, saving⟩ :=
    save_of_storedForm_ok (hasConflict_of_absent absent control sequence) storable
  have fresh : (empty.afterRun requests).nextVersion collection identifier form =
      ⟨identifier, (empty.afterRun requests).nextSequence, 1, revisionIdentifier 1 form, form⟩ := by
    rw [nextVersion, absent]
    rfl
  rw [step, saving, fresh]
  rfl

end Absence

/-- What a save that fails on conflict does after the removal of its document, whatever happened
between the sight and the removal and since then. If a document of this name was created again,
the save is refused, and nothing changes. If there is none, the save goes as one that overwrites
whatever is stored: a bag that can be stored makes a new document of the first generation, under
a sequence after the one that was seen. The same holds of clients whose document carries the
sequence. -/
theorem save_after_removal [Machine] (first middle last : List (Request Tree))
    (reading removing : Request Tree) {collection : Address} {identifier : String} {sequence : Int}
    (seen : (eventAfter first reading).shown? = some ((collection, identifier), sequence))
    (removed : (eventAfter (first ++ reading :: middle) removing).change? =
      some ((collection, identifier), .removed)) :
    let requests := first ++ reading :: middle ++ removing :: last
    let final := empty.afterRun requests
    let stale (data : Tree) : Request Tree :=
      .save collection identifier data (some .failOnConflict) sequence
    0 < sequence ∧ match Ledger.ofHistory (empty.history requests) (collection, identifier) with
    | some _ =>
        (∀ data, final.step (stale data) = (.failed (.database (.conflict identifier)), final))
          ∧ ∀ workspace engine number document, workspace.Keeps engine requests →
            workspace.collection number = ⟨engine, collection⟩ →
              workspace.Carries document identifier sequence →
                ∃ after, (Action.save number document (some .failOnConflict)).run.run workspace =
                    (.error (.database (.conflict identifier)), after)
                  ∧ after.Keeps engine (requests ++
                    [workspace.saveRequest collection document (some .failOnConflict)])
                  ∧ after.documents = workspace.documents
    | none =>
        (∀ data,
          (∀ overwriting, final.step (stale data) =
              final.step (.save collection identifier data (some .lastWriteWins) overwriting))
            ∧ ∀ form, data.storedForm = .ok form →
              (final.step (stale data)).1 = .answer (.saved
                  ⟨identifier, some (revisionIdentifier 1 form), final.nextSequence⟩)
                ∧ sequence < final.nextSequence)
          ∧ ∀ workspace engine number document form, workspace.Keeps engine requests →
            workspace.collection number = ⟨engine, collection⟩ →
              workspace.Carries document identifier sequence →
                (workspace.store.unfold (.cell (workspace.document document).bag)).storedForm =
                    .ok form →
                  ∃ after, (Action.save number document (some .failOnConflict)).run.run workspace =
                      (.ok (), after)
                    ∧ after.Keeps engine (requests ++
                      [workspace.saveRequest collection document (some .failOnConflict)])
                    ∧ after.Carries document identifier final.nextSequence := by
  intro requests final stale
  have represents : final.Represents (.ofHistory (empty.history requests)) :=
    represents_afterRun requests
  obtain ⟨assigned, same, positive, bounded⟩ :=
    sequence_lt_after seen (middle ++ removing :: last)
  rw [← List.cons_append, ← List.append_assoc] at bounded
  refine ⟨same ▸ Int.natCast_pos.2 positive, ?_⟩
  cases known : Ledger.ofHistory (empty.history requests) (collection, identifier) with
  | some entry =>
      have conflict := hasConflict_after_removal seen removed last known
      constructor
      · intro data
        rw [step, save_of_conflict conflict]
        rfl
      · intro workspace engine number document keeps linked carries
        obtain ⟨after, refused, kept, _, same⟩ :=
          Action.run_save_of_carried_conflict keeps linked carries conflict
        exact ⟨after, refused, kept, same⟩
  | none =>
      have absent := represents.document?_eq_none known
      constructor
      · intro data
        exact ⟨fun overwriting => step_save_of_absent absent data _ _ _ overwriting,
          fun form storable => ⟨first_version_of_absent absent storable _ _,
            same ▸ Int.ofNat_lt.2 bounded⟩⟩
      · intro workspace engine number document form keeps linked carries storable
        have free := hasConflict_of_absent absent (some .failOnConflict) sequence
        obtain ⟨after, entry, saved, kept, _, fresh, carriesNext, _⟩ :=
          Action.run_save_of_carried_free keeps linked carries storable free
        rw [fresh] at carriesNext
        exact ⟨after, saved, kept, carriesNext⟩

/-- The last save of a document that was removed meets nothing to be in conflict with, and it
brings the document back. -/
theorem outdated_save_brings_document_back :
    let saving : Request Tree := .save notes "trip" (.object []) none 0
    let removing : Request Tree := .deleteDocument notes "trip" none 0
    (eventAfter [] saving).shown? = some ((notes, "trip"), 1)
      ∧ (eventAfter [saving] removing).change? = some ((notes, "trip"), .removed)
      ∧ (eventAfter [saving, removing]
        (.save notes "trip" (.object []) (some .failOnConflict) 1)).shown? =
          some ((notes, "trip"), 2) := by
  intro saving removing
  have present : ((empty.afterRun [saving]).document? notes "trip").isSome := by decide +kernel
  exact ⟨by decide +kernel, (removed_of_present present).1, by decide +kernel⟩

theorem outdated_save_is_refused_after_recreation :
    let saving : Request Tree := .save notes "trip" (.object []) none 0
    let removing : Request Tree := .purgeDocument notes "trip"
    let stale : Request Tree := .save notes "trip" (.object []) (some .failOnConflict) 1
    (eventAfter [] saving).shown? = some ((notes, "trip"), 1)
      ∧ (eventAfter [saving] removing).change? = some ((notes, "trip"), .removed)
      ∧ ((empty.afterRun [saving, removing, saving]).step stale).1 =
        .failed (.database (.conflict "trip"))
      ∧ (empty.afterRun [saving, removing]).step stale =
        (empty.afterRun [saving, removing]).step
          (.save notes "trip" (.object []) (some .lastWriteWins) 0) := by
  intro saving removing stale
  have seen : (eventAfter [] saving).shown? = some ((notes, "trip"), 1) := by decide +kernel
  have present : ((empty.afterRun [saving]).document? notes "trip").isSome := by decide +kernel
  have removed := (removed_of_present present).2
  have recreated : ((empty.afterRun [saving, removing, saving]).document? notes "trip").isSome := by
    decide +kernel
  have gone : ((empty.afterRun [saving, removing]).document? notes "trip").isSome = false := by
    decide +kernel
  rw [(represents_afterRun _).isSome_document?] at recreated gone
  refine ⟨seen, removed, ?_, ?_⟩
  · obtain ⟨_, refused⟩ := save_after_removal [] [] [saving] saving removing seen removed
    obtain ⟨entry, known⟩ := Option.isSome_iff_exists.1 recreated
    rw [List.nil_append, List.singleton_append, known] at refused
    rw [refused.1 (.object [])]
  · obtain ⟨_, accepted⟩ := save_after_removal [] [] [] saving removing seen removed
    have unknown := Option.isNone_iff_eq_none.1 (Option.isSome_eq_false_iff.1 gone)
    rw [List.nil_append, List.singleton_append, unknown] at accepted
    exact (accepted.1 (.object [])).1 0

end Memory

end DocumentStore
