import DocumentStore.Proofs.Engine.Shares

/-!
Contract: collections do not interfere.

Owns: the sequences that other collections use up in a run, and the correspondence between a run
on several collections and the run on one of them alone.

Does not own: what a single request does to a collection.

The two runs count sequences differently. Which sequences are own ones is known only from the
whole run, so the whole run fixes them before the induction, and the induction checks that every
request uses up the kind of sequence that was foreseen for it.
-/

set_option autoImplicit false

namespace DocumentStore

/-- The collection and the sequence of a save that succeeded. -/
def Event.assigned? : Event → Option (Address × Int)
  | ⟨.save collection _ _ _ _, ⟨.ok (.saved result), _⟩⟩ => some (collection, result.sequence)
  | _ => none

theorem Event.exists_of_assigned? {event : Event} {collection : Address} {sequence : Int}
    (assigned : event.assigned? = some (collection, sequence)) :
    ∃ identifier data control based result,
      event.request = .save collection identifier data control based
        ∧ event.outcome.result = .ok (.saved result) ∧ result.sequence = sequence := by
  unfold assigned? at assigned
  split at assigned
  · next other identifier data control based result log =>
      cases assigned
      exact ⟨identifier, data, control, based, result, rfl, rfl, rfl⟩
  · cases assigned

namespace Memory

/-- The requests about a collection carry no sequences but zero and those that earlier saves to
the collection returned. -/
def CarriesReturned [Machine] (collection : Address) (requests : List (Request Tree)) : Prop :=
  ∀ earlier request later sequence, requests = earlier ++ request :: later →
    request.collection? = some collection → request.sequence? = some sequence →
      sequence = 0 ∨ ∃ event ∈ empty.history earlier, event.assigned? = some (collection, sequence)

/-- The contents that requests about other collections pass to the engine. -/
def passedByOthers [Machine] (collection : Address) (requests : List (Request Tree)) :
    List Digest.Bytes :=
  (requests.filter fun request => !request.concerns collection).flatMap Request.passed

/-! ### Sequences of others -/

/-- The sequences that requests about other collections use up in a run. -/
def UsedByOthers [Machine] (collection : Address) : Memory → List (Request Tree) → Nat → Prop
  | _, [], _ => False
  | memory, request :: rest, sequence =>
      (request.concerns collection = false ∧ memory.nextSequence = sequence
        ∧ (memory.step request).2.nextSequence ≠ sequence)
      ∨ UsedByOthers collection (memory.step request).2 rest sequence

section Foresight

variable {own : Nat → Prop} {collection : Address} {memory : Memory} {request : Request Tree}
  {requests rest : List (Request Tree)}

theorem usedByOthers_cons [Machine] {sequence : Nat} :
    UsedByOthers collection memory (request :: rest) sequence ↔
      (request.concerns collection = false ∧ memory.nextSequence = sequence
        ∧ (memory.step request).2.nextSequence ≠ sequence)
      ∨ UsedByOthers collection (memory.step request).2 rest sequence := Iff.rfl

theorem UsedByOthers.bounds [Machine] {sequence : Nat}
    (used : UsedByOthers collection memory requests sequence) :
    memory.nextSequence ≤ sequence ∧ sequence < (memory.afterRun requests).nextSequence := by
  induction requests generalizing memory with
  | nil => exact used.elim
  | cons request rest inductionHypothesis =>
      have first := (memory.effect_step request).nextSequence_le
      have others := nextSequence_le_afterRun (memory.step request).2 rest
      rw [afterRun_cons]
      rcases usedByOthers_cons.1 used with ⟨_, next, passed⟩ | later
      · omega
      · have bounds := inductionHypothesis later
        omega

/-- From the next sequence on, the own sequences are those that others do not use up. -/
def Foresees [Machine] (own : Nat → Prop) (collection : Address) (memory : Memory)
    (requests : List (Request Tree)) : Prop :=
  ∀ sequence, memory.nextSequence ≤ sequence →
    (own sequence ↔ ¬UsedByOthers collection memory requests sequence)

/-- Nobody but the first request of a run can use up the next sequence. -/
theorem Foresees.numbersOwn [Machine]
    (foresees : Foresees own collection memory (request :: rest)) :
    NumbersOwn own collection memory request := by
  intro usedUp
  have notLater : ¬UsedByOthers collection (memory.step request).2 rest memory.nextSequence := by
    intro later
    have grown := (memory.effect_step request).nextSequence_le
    have bounds := later.bounds
    omega
  rw [foresees _ (Nat.le_refl _), usedByOthers_cons, or_iff_left notLater]
  simp [usedUp]

theorem Foresees.tail [Machine] (foresees : Foresees own collection memory (request :: rest)) :
    Foresees own collection (memory.step request).2 rest := by
  intro sequence later
  have grown := (memory.effect_step request).nextSequence_le
  have notFirst : ¬(request.concerns collection = false ∧ memory.nextSequence = sequence
      ∧ (memory.step request).2.nextSequence ≠ sequence) := by
    intro ⟨_, next, passed⟩
    omega
  rw [foresees sequence (by omega), usedByOthers_cons, or_iff_right notFirst]

/-- A sequence that a save to the collection returned is not used up by others. -/
theorem exists_of_assigned [Machine] {earlier : List (Request Tree)} {event : Event}
    {sequence : Int} (member : event ∈ memory.history earlier)
    (assigned : event.assigned? = some (collection, sequence)) (later : List (Request Tree)) :
    ∃ number : Nat, sequence = number ∧ memory.nextSequence ≤ number
      ∧ ¬UsedByOthers collection memory (earlier ++ later) number := by
  induction earlier generalizing memory with
  | nil => cases member
  | cons request rest inductionHypothesis =>
      have grown := (memory.effect_step request).nextSequence_le
      rw [history_cons] at member
      rcases List.mem_cons.1 member with rfl | inRest
      · obtain ⟨identifier, data, control, based, result, asked, answered, same⟩ :=
          Event.exists_of_assigned? assigned
        obtain rfl : request = .save collection identifier data control based := asked
        obtain ⟨⟨_, returned, number⟩, next⟩ := assigns_of_save answered
        obtain rfl := Reply.saved.inj returned
        refine ⟨memory.nextSequence, same.symm.trans number, Nat.le_refl _, ?_⟩
        intro used
        rcases usedByOthers_cons.1 used with ⟨foreign, _⟩ | usedLater
        · simp [Request.concerns, Request.collection?] at foreign
        · have bounds := usedLater.bounds
          omega
      · obtain ⟨number, same, bound, unused⟩ := inductionHypothesis inRest
        refine ⟨number, same, by omega, ?_⟩
        intro used
        rcases usedByOthers_cons.1 used with ⟨_, next, passed⟩ | usedLater
        · omega
        · exact unused usedLater

/-- What the collection returned is its own, and so is zero, which nobody returns. -/
theorem CarriesReturned.carriesOwn [Machine]
    (carriesReturned : CarriesReturned collection requests) :
    ∀ request ∈ requests, request.concerns collection = true →
      request.CarriesOwn fun sequence => ¬UsedByOthers collection empty requests sequence := by
  intro request member concerned sequence carried
  have about := Request.collection?_of_concerns concerned carried
  obtain ⟨earlier, later, split⟩ := List.append_of_mem member
  rcases carriesReturned earlier request later sequence split about carried with
    rfl | ⟨event, inHistory, assigned⟩
  · exact ⟨0, fun used => absurd used.bounds.1 (by decide), rfl⟩
  · obtain ⟨number, same, _, unused⟩ := exists_of_assigned inHistory assigned (request :: later)
    rw [← split] at unused
    exact ⟨number, unused, same⟩

/-- A run uses up finitely many sequences. -/
theorem infinite_unused [Machine] :
    (Set.ofPred fun sequence => ¬UsedByOthers collection memory requests sequence).Infinite := by
  refine Set.infinite_of_forall_exists_gt fun bound => ?_
  refine ⟨bound + (memory.afterRun requests).nextSequence + 1, fun used => ?_, by omega⟩
  have bounds := used.bounds
  omega

theorem share_empty [DecidablePred own] (ownZero : own 0) :
    empty.share own collection [] = empty := by
  have counted : Nat.count own empty.nextSequence = 1 := by
    rw [empty, Nat.count_succ, Nat.count_zero, if_pos ownZero]
  rw [share, counted]
  rfl

end Foresight

/-! ### Runs -/

/-- The run on one collection alone, from its share of the state, corresponds to what the run on
all collections does there. -/
theorem forall₂_corresponds [Machine] {own : Nat → Prop} [DecidablePred own] {collection : Address}
    {memory : Memory} {contents : ContentStore} {passed lent : List Digest.Bytes}
    {requests : List (Request Tree)} (keepsOwn : memory.KeepsOwn own collection)
    (lends : ContentStore.Lends passed lent contents memory.contents)
    (collisionFree : Digest.CollisionFree passed)
    (arrives : requests.flatMap Request.passed ⊆ passed)
    (lending : passedByOthers collection requests ⊆ lent)
    (carriesOwn : ∀ request ∈ requests, request.concerns collection = true → request.CarriesOwn own)
    (foresees : Foresees own collection memory requests) :
    List.Forall₂ (Corresponds (sequenceAt own) lent)
      ((memory.share own collection contents).history
        ((requests.filter (Request.concerns collection)).map (Request.renumber (position own))))
      ((memory.history requests).filter fun event => event.request.concerns collection) := by
  -- The contents vary with the state: the run alone keeps fewer of them.
  induction requests generalizing memory contents with
  | nil => exact .nil
  | cons request rest inductionHypothesis =>
      have numbersOwn := foresees.numbersOwn
      obtain ⟨arrivesFirst, arrivesRest⟩ := List.append_subset.1 arrives
      have carriesRest : ∀ later ∈ rest, later.concerns collection = true → later.CarriesOwn own :=
        fun later member => carriesOwn later (List.mem_cons_of_mem _ member)
      cases concerned : request.concerns collection with
      | true =>
          have carries := carriesOwn request List.mem_cons_self concerned
          obtain ⟨after, shared, lendsAfter, corresponds⟩ :=
            follows_of_concerns concerned keepsOwn lends arrivesFirst carries numbersOwn
          have lendingRest : passedByOthers collection rest ⊆ lent := by
            rwa [passedByOthers, List.filter_cons_of_neg (by simp [concerned])] at lending
          simp only [List.filter_cons, concerned, ↓reduceIte, List.map_cons, history_cons, shared]
          exact .cons corresponds (inductionHypothesis (keepsOwn.step numbersOwn) lendsAfter
            arrivesRest lendingRest carriesRest foresees.tail)
      | false =>
          -- Nothing is sent alone, the share stays as it is, and what is passed here is lent.
          rw [passedByOthers, List.filter_cons_of_pos (by simp [concerned]), List.flatMap_cons]
            at lending
          obtain ⟨lendingFirst, lendingRest⟩ := List.append_subset.1 lending
          have lendsAfter := lends_step_of_foreign lends collisionFree arrivesFirst lendingFirst
          simp only [List.filter_cons, concerned, Bool.false_eq_true, ↓reduceIte, history_cons]
          rw [← share_step_of_foreign concerned numbersOwn]
          exact inductionHypothesis (keepsOwn.step numbersOwn) lendsAfter arrivesRest lendingRest
            carriesRest foresees.tail

/-- Collections do not interfere. If the requests about a collection carry only sequences that it
returned, then a run on all collections goes, for this one, as the run on it alone: the requests
are the same and so are the outcomes, but for the numbers of sequences, which one strictly
increasing function that fixes zero takes from the one run to the other, and for contents that
are missing alone and were passed by requests about other collections. Collections that differ
in any part of their addresses are others. -/
theorem collections_do_not_interfere [Machine] (requests : List (Request Tree))
    (collection : Address) (carriesReturned : CarriesReturned collection requests)
    (collisionFree : Digest.CollisionFree (requests.flatMap Request.passed)) :
    (∃ (number : Int → Int) (alone : List (Request Tree)),
      StrictMono number ∧ number 0 = 0
        ∧ alone.map (Request.renumber number) = requests.filter (Request.concerns collection)
        ∧ List.Forall₂ (Corresponds number (passedByOthers collection requests))
          (empty.history alone)
          ((empty.history requests).filter fun event => event.request.concerns collection))
      ∧ ∀ (request : Request Tree) (other : Address), request.collection? = some other →
        (request.concerns collection = true ↔ other.database = collection.database
          ∧ other.scope = collection.scope ∧ other.collection = collection.collection) := by
  classical
  refine ⟨?_, fun request other => Request.concerns_iff⟩
  let own : Nat → Prop := fun sequence => ¬UsedByOthers collection empty requests sequence
  have ownZero : own 0 := fun used => absurd used.bounds.1 (by decide)
  have carriesOwn := carriesReturned.carriesOwn
  have keepsOwn : empty.KeepsOwn own collection :=
    ⟨List.nodup_nil, fun found => nomatch found⟩
  have corresponds := forall₂_corresponds keepsOwn (ContentStore.lends_nil _ _) collisionFree
    (List.Subset.refl _) (List.Subset.refl _) carriesOwn fun _ _ => Iff.rfl
  rw [share_empty ownZero] at corresponds
  refine ⟨sequenceAt own, _, strictMono_sequenceAt infinite_unused, sequenceAt_zero ownZero, ?_,
    corresponds⟩
  rw [List.map_map]
  refine (List.map_congr_left fun request member => ?_).trans (List.map_id _)
  obtain ⟨inRun, concerned⟩ := List.mem_filter.1 member
  exact Request.renumber_position (carriesOwn request inRun concerned)

section SameName

/-- Two collections of one full name, in two scopes. -/
def dottedScope : Address :=
  ⟨"shop", "a.b", "c"⟩

def dottedName : Address :=
  ⟨"shop", "a", "b.c"⟩

/-- A document is saved to each of them, and the first one's is saved again, based on the sequence
that its first save returned. -/
def alternating : List (Request Tree) :=
  [.save dottedName "x" (.object []) none 0, .save dottedScope "x" (.object []) none 0,
    .save dottedScope "x" (.object []) (some .failOnConflict) 2, .getDocument dottedScope "x"]

/-- A save to a collection returns the next sequence. -/
theorem assigned?_step_save [Machine] {memory : Memory} {collection : Address} {identifier : String}
    {data : Tree} {control : Option ConcurrencyControl} {sequence : Int} {stored : Json}
    (free : memory.hasConflict collection identifier control sequence = false)
    (form : data.storedForm = .ok stored) :
    Event.assigned? ⟨.save collection identifier data control sequence,
        (memory.step (.save collection identifier data control sequence)).1⟩ =
      some (collection, (memory.nextSequence : Int)) := by
  obtain ⟨contents, saving⟩ := save_of_storedForm_ok free form
  simp only [step, saving]
  rfl

theorem carriesReturned_alternating : CarriesReturned dottedScope alternating := by
  intro earlier request later sequence split about carried
  rcases earlier with _ | ⟨first, _ | ⟨second, _ | ⟨third, _ | ⟨fourth, rest⟩⟩⟩⟩
  all_goals
    simp only [alternating, List.nil_append, List.cons_append, List.cons.injEq] at split
  · obtain ⟨rfl, -⟩ := split
    exact .inl (Option.some.inj carried).symm
  · obtain ⟨-, rfl, -⟩ := split
    exact .inl (Option.some.inj carried).symm
  · obtain ⟨rfl, rfl, rfl, -⟩ := split
    obtain rfl := Option.some.inj carried
    refine .inr ⟨_, List.mem_cons_of_mem _ List.mem_cons_self, ?_⟩
    have free : empty.hasConflict dottedName "x" none 0 = false := rfl
    obtain ⟨contents, saving⟩ := save_of_storedForm_ok free Tree.storedForm_object_nil
    have next : (empty.step (.save dottedName "x" (.object []) none 0)).2.nextSequence = 2 := by
      rw [step_save, saving]
      rfl
    have overwrites : (none : Option ConcurrencyControl) ≠ some .failOnConflict := by decide
    exact (assigned?_step_save (hasConflict_of_ne_failOnConflict overwrites)
      Tree.storedForm_object_nil).trans (by rw [next])
  · obtain ⟨-, -, -, rfl, -⟩ := split
    cases carried
  · simp at split

/-- The sequence 2 that the second save to the collection carries is its first one when the
collection is alone. -/
theorem equal_names_do_not_interfere :
    CarriesReturned dottedScope alternating
      ∧ Digest.CollisionFree (alternating.flatMap Request.passed)
      ∧ ∃ (number : Int → Int) (alone : List (Request Tree)),
        StrictMono number ∧ number 0 = 0
          ∧ alone.map (Request.renumber number) =
            [.save dottedScope "x" (.object []) none 0,
              .save dottedScope "x" (.object []) (some .failOnConflict) 2,
              .getDocument dottedScope "x"]
          ∧ List.Forall₂ (Corresponds number (passedByOthers dottedScope alternating))
            (empty.history alone)
            ((empty.history alternating).filter fun event => event.request.concerns dottedScope) := by
  have copying : (Tree.object []).throughText true = .ok (.object []) := by
    rw [Tree.throughText_eq]
    rfl
  have collisionFree : Digest.CollisionFree (alternating.flatMap Request.passed) := by
    have none : alternating.flatMap Request.passed = [] := by
      simp [alternating, Request.passed, Tree.contents_of_throughText copying,
        ContentStore.blobContents, ContentStore.tagged?, ContentStore.blobContentsOfFields]
    rw [none]
    exact fun content member => nomatch member
  refine ⟨carriesReturned_alternating, collisionFree, ?_⟩
  exact (collections_do_not_interfere alternating dottedScope carriesReturned_alternating
    collisionFree).1

end SameName

end Memory

end DocumentStore
