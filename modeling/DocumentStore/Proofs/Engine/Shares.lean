import DocumentStore.Proofs.Engine.Contents
import DocumentStore.Proofs.Engine.Failures
import DocumentStore.Proofs.Engine.Versions
import DocumentStore.Proofs.Table.Shares
import Mathlib.Data.Int.ConditionallyCompleteOrder
import Mathlib.Data.Nat.Nth

/-!
Contract: the share of one collection in an engine.

Owns: the requests that concern a collection, the numbering of the sequences of one collection,
the state that an engine has of one collection alone, and what a single request does to it.

Does not own: runs.

Sequences are counted over all collections and contents are kept for all of them, so the share
of a collection is not a part of the state: its sequences are counted anew, and its contents are
those that came with its own documents.
-/

set_option autoImplicit false

namespace DocumentStore

/-! ### Requests by collection -/

namespace Request

variable {Data : Type}

/-- The collection that a request is about. Queries are about no collection. -/
def collection? : Request Data → Option Address
  | save collection .. => some collection
  | getDocument collection .. => some collection
  | deleteDocument collection .. => some collection
  | purgeDocument collection .. => some collection
  | getBlobContent collection .. => some collection
  | createIndex collection .. => some collection
  | deleteIndex collection .. => some collection
  | getIndexes collection => some collection
  | getCount collection => some collection
  | setExpiration collection .. => some collection
  | getExpiration collection .. => some collection
  | executeQuery .. => none
  | explainQuery .. => none

/-- The sequence that a request carries. -/
def sequence? : Request Data → Option Int
  | save _ _ _ _ sequence => some sequence
  | deleteDocument _ _ _ sequence => some sequence
  | _ => none

/-- Whether a request is about no collection but this one. -/
def concerns (collection : Address) (request : Request Data) : Bool :=
  request.collection?.all (· = collection)

/-- The same request with another sequence for the one it carries. -/
def renumber (number : Int → Int) : Request Data → Request Data
  | save collection identifier data control sequence =>
      .save collection identifier data control (number sequence)
  | deleteDocument collection identifier control sequence =>
      .deleteDocument collection identifier control (number sequence)
  | request => request

theorem renumber_eq_self {number : Int → Int} {request : Request Data}
    (fixed : ∀ sequence, request.sequence? = some sequence → number sequence = sequence) :
    request.renumber number = request := by
  cases request with
  | save collection identifier data control sequence => rw [renumber, fixed sequence rfl]
  | deleteDocument collection identifier control sequence => rw [renumber, fixed sequence rfl]
  | _ => rfl

theorem renumber_renumber (first second : Int → Int) (request : Request Data) :
    (request.renumber first).renumber second = request.renumber (second ∘ first) := by
  cases request <;> rfl

/-- A request that carries a sequence is about some collection. -/
theorem collection?_of_concerns {collection : Address} {request : Request Data} {sequence : Int}
    (concerned : request.concerns collection = true) (carried : request.sequence? = some sequence) :
    request.collection? = some collection := by
  cases request with
  | save other identifier data control sequence =>
      exact congrArg some (of_decide_eq_true concerned)
  | deleteDocument other identifier control sequence =>
      exact congrArg some (of_decide_eq_true concerned)
  | _ => cases carried

/-- Addresses are the same only if their three parts are. -/
theorem concerns_iff {collection other : Address} {request : Request Data}
    (about : request.collection? = some other) :
    request.concerns collection = true ↔ other.database = collection.database
      ∧ other.scope = collection.scope ∧ other.collection = collection.collection := by
  rw [concerns, about, Option.all_some, decide_eq_true_iff]
  constructor
  · rintro rfl
    exact ⟨rfl, rfl, rfl⟩
  · intro ⟨database, scope, name⟩
    cases other
    cases collection
    simp_all

end Request

/-- The same reply with another sequence for the one it tells. -/
def Reply.renumber (number : Int → Int) : Reply → Reply
  | .value draft => .value draft
  | .saved result => .saved { result with sequence := number result.sequence }
  | .record handed => .record { handed with sequence := number handed.sequence }

/-- The same outcome with another sequence for the one it tells. -/
def Outcome.renumber (number : Int → Int) (outcome : Outcome) : Outcome :=
  ⟨outcome.result.map (Reply.renumber number), outcome.log⟩

/-- An event of a run on one collection alone, and the same event of a run on several: sequences
are renumbered, and a content that is missing in the first may be lent in the second. -/
inductive Corresponds (number : Int → Int) (lent : List Digest.Bytes) : Event → Event → Prop where
  | same {alone whole : Event} (request : whole.request = alone.request.renumber number)
      (outcome : whole.outcome = alone.outcome.renumber number) : Corresponds number lent alone whole
  | lent {collection : Address} {identifier key : String} {bytes : Digest.Bytes}
      (foreign : bytes ∈ lent) :
      Corresponds number lent
        ⟨.getBlobContent collection identifier key,
          .failed (.database (.blobNotFound key identifier))⟩
        ⟨.getBlobContent collection identifier key, .answer (.value (.value (.bytes bytes)))⟩

/-! ### Own sequences -/

section Numbering

variable (own : Nat → Prop)

/-- The own sequence at a position, the first at position zero. Negative numbers stand for
themselves. -/
noncomputable def sequenceAt : Int → Int
  | .ofNat position => (Nat.nth own position : Nat)
  | .negSucc number => .negSucc number

variable {own}

theorem strictMono_sequenceAt (infinite : (Set.ofPred own).Infinite) :
    StrictMono (sequenceAt own) := by
  intro first second less
  cases first with
  | ofNat first =>
      cases second with
      | ofNat second =>
          have less : first < second := Int.ofNat_lt.1 less
          exact Int.ofNat_lt.2 (Nat.nth_strictMono infinite less)
      | negSucc second =>
          have less : (first : Int) < Int.negSucc second := less
          omega
  | negSucc first =>
      cases second with
      | ofNat second =>
          show Int.negSucc first < (Nat.nth own second : Nat)
          omega
      | negSucc second => exact less

variable [DecidablePred own]

variable (own) in
/-- The position of a sequence among the own ones. -/
def position : Int → Int
  | .ofNat sequence => (Nat.count own sequence : Nat)
  | .negSucc number => .negSucc number

theorem sequenceAt_count {sequence : Nat} (isOwn : own sequence) :
    sequenceAt own (Nat.count own sequence : Nat) = (sequence : Int) :=
  congrArg Int.ofNat (Nat.nth_count isOwn)

theorem sequenceAt_zero (isOwn : own 0) : sequenceAt own 0 = 0 :=
  sequenceAt_count isOwn

/-- Every sequence that a request carries is an own one. -/
def Request.CarriesOwn (own : Nat → Prop) (request : Request Tree) : Prop :=
  ∀ sequence, request.sequence? = some sequence → ∃ number : Nat, own number ∧ sequence = number

theorem Request.renumber_position {request : Request Tree} (carriesOwn : request.CarriesOwn own) :
    (request.renumber (position own)).renumber (sequenceAt own) = request := by
  rw [renumber_renumber]
  refine renumber_eq_self fun sequence carried => ?_
  obtain ⟨number, isOwn, rfl⟩ := carriesOwn sequence carried
  exact sequenceAt_count isOwn

end Numbering

/-! ### Contents of two runs -/

/-- The contents kept in a run on one collection, and those kept in a run on several: the latter
are more, by contents that are lent. -/
structure ContentStore.Lends (passed lent : List Digest.Bytes) (alone whole : ContentStore) :
    Prop where
  named : ∀ digest bytes, Table.value? alone digest = some bytes →
    bytes ∈ passed ∧ digest = Digest.contentDigest bytes
  kept : ∀ digest bytes, Table.value? alone digest = some bytes →
    Table.value? whole digest = some bytes
  origin : ∀ digest bytes, Table.value? whole digest = some bytes →
    Table.value? alone digest = some bytes ∨ bytes ∈ lent

theorem ContentStore.lends_nil (passed lent : List Digest.Bytes) : Lends passed lent [] [] where
  named := fun _ _ found => nomatch found
  kept := fun _ _ found => found
  origin := fun _ _ found => .inl found

namespace Memory

variable (own : Nat → Prop) [DecidablePred own]

/-- A version with its sequence counted among the own ones. -/
def ranked (stored : StoredDocument) : StoredDocument :=
  { stored with sequence := Nat.count own stored.sequence }

/-- The state of one collection alone, with given contents. -/
def share (collection : Address) (contents : ContentStore) (memory : Memory) : Memory where
  documents := Table.share collection (ranked own) memory.documents
  contents
  indexes := Table.share collection id memory.indexes
  expirations := Table.share collection id memory.expirations
  queries := memory.queries
  nextSequence := Nat.count own memory.nextSequence

/-- Every document is stored once, and the versions of a collection carry own sequences. -/
structure KeepsOwn (own : Nat → Prop) (collection : Address) (memory : Memory) : Prop where
  distinct : Table.Distinct memory.documents
  isOwn : ∀ {identifier : String} {stored : StoredDocument},
    memory.document? collection identifier = some stored → own stored.sequence

section Sharing

variable {own} {memory after : Memory} {collection : Address} {contents : ContentStore}
  {identifier : String}

@[simp] theorem contents_share :
    (memory.share own collection contents).contents = contents := rfl

@[simp] theorem document?_share :
    (memory.share own collection contents).document? collection identifier =
      (memory.document? collection identifier).map (ranked own) :=
  Table.value?_share _ _ _

theorem namesIn_share {α β : Type} (transform : α → β) (table : Table (Address × String) α) :
    namesIn (Table.share collection transform table) collection = namesIn table collection := by
  rw [namesIn, namesIn, Table.keys_share, List.filter_filter]
  simp

theorem forget_share :
    (memory.share own collection contents).forget collection identifier =
      (memory.forget collection identifier).share own collection contents := by
  simp only [forget, share, Table.share_remove]

theorem nextVersion_share (stored : Json) :
    (memory.share own collection contents).nextVersion collection identifier stored =
      ranked own (memory.nextVersion collection identifier stored) := by
  rw [nextVersion, document?_share, Option.map_map]
  rfl

/-- Among own sequences, a conflict is one for their positions. -/
theorem isConflict_ranked {stored : StoredDocument} (storedOwn : own stored.sequence)
    (control : Option ConcurrencyControl) {sequence : Nat} (isOwn : own sequence) :
    isConflict (ranked own stored) control (position own sequence) =
      isConflict stored control sequence := by
  have same : (((Nat.count own stored.sequence : Nat) : Int) == (Nat.count own sequence : Nat)) =
      ((stored.sequence : Int) == sequence) := by
    rw [Bool.eq_iff_iff, beq_iff_eq, beq_iff_eq, Int.ofNat_inj, Int.ofNat_inj]
    exact ⟨Nat.count_injective storedOwn isOwn, congrArg _⟩
  show (_ && !(((Nat.count own stored.sequence : Nat) : Int) == (Nat.count own sequence : Nat))) = _
  rw [same]
  rfl

theorem hasConflict_share (keepsOwn : memory.KeepsOwn own collection)
    (control : Option ConcurrencyControl) {sequence : Nat} (isOwn : own sequence) :
    (memory.share own collection contents).hasConflict collection identifier control
        (position own sequence) =
      memory.hasConflict collection identifier control sequence := by
  rw [hasConflict, hasConflict, document?_share]
  cases found : memory.document? collection identifier with
  | none => rfl
  | some stored => exact isConflict_ranked (keepsOwn.isOwn found) control isOwn

end Sharing

/-! ### What one request does to a share -/

section Steps

variable {own} {memory : Memory} {collection : Address} {request : Request Tree}
  {contents : ContentStore} {passed lent : List Digest.Bytes}

/-- The sequence that a request uses up, if it uses up one, is an own one exactly if the request
concerns the collection. -/
def NumbersOwn [Machine] (own : Nat → Prop) (collection : Address) (memory : Memory)
    (request : Request Tree) : Prop :=
  (memory.step request).2.nextSequence ≠ memory.nextSequence →
    (own memory.nextSequence ↔ request.concerns collection = true)

/-- The collection alone answers like the engine, up to the numbers of sequences and to contents
that are lent, and its state remains the share of the collection. -/
def Follows [Machine] (own : Nat → Prop) [DecidablePred own] (collection : Address)
    (passed lent : List Digest.Bytes) (contents : ContentStore) (memory : Memory)
    (request : Request Tree) : Prop :=
  let alone := (memory.share own collection contents).step (request.renumber (position own))
  ∃ after : ContentStore,
    alone.2 = (memory.step request).2.share own collection after
      ∧ ContentStore.Lends passed lent after (memory.step request).2.contents
      ∧ Corresponds (sequenceAt own) lent ⟨request.renumber (position own), alone.1⟩
        ⟨request, (memory.step request).1⟩

/-- A request is followed if the same answer, which tells no sequence, is given alone, and if what
happens to the state happens to the share. -/
theorem Follows.of_same_answer [Machine] {outcome : Outcome} {after : Memory}
    (lends : ContentStore.Lends passed lent contents memory.contents)
    (carried : (request.renumber (position own)).renumber (sequenceAt own) = request)
    (whole : memory.step request = (outcome, after))
    (alone : (memory.share own collection contents).step (request.renumber (position own)) =
      (outcome, after.share own collection contents))
    (spared : after.contents = memory.contents)
    (untold : outcome.renumber (sequenceAt own) = outcome) :
    Follows own collection passed lent contents memory request := by
  refine ⟨contents, ?_, ?_, .same carried.symm ?_⟩
  · rw [alone, whole]
  · rw [whole, spared]
    exact lends
  · rw [alone, whole, untold]

theorem follows_getDocument [Machine] (keepsOwn : memory.KeepsOwn own collection)
    (lends : ContentStore.Lends passed lent contents memory.contents) (identifier : String) :
    Follows own collection passed lent contents memory (.getDocument collection identifier) := by
  cases found : memory.document? collection identifier with
  | none =>
      have whole : memory.step (.getDocument collection identifier) =
          (.answer .nothing, memory) := by rw [step, found]
      refine .of_same_answer lends rfl whole ?_ rfl rfl
      simp only [Request.renumber, step, document?_share, found]
      rfl
  | some stored =>
      have isOwn := keepsOwn.isOwn found
      refine ⟨contents, ?_, ?_, .same rfl ?_⟩
      all_goals simp only [step, Request.renumber, document?_share, found, Option.map_some]
      · exact lends
      · simp only [Outcome.renumber, Outcome.answer, Except.map, Reply.renumber, record, ranked,
          sequenceAt_count isOwn]

theorem follows_deleteDocument [Machine] (keepsOwn : memory.KeepsOwn own collection)
    (lends : ContentStore.Lends passed lent contents memory.contents) (identifier : String)
    (control : Option ConcurrencyControl) {sequence : Int}
    (carriesOwn : (Request.deleteDocument collection identifier control sequence).CarriesOwn own) :
    Follows own collection passed lent contents memory
      (.deleteDocument collection identifier control sequence) := by
  have carried := Request.renumber_position carriesOwn
  obtain ⟨sequence, isOwn, rfl⟩ := carriesOwn sequence rfl
  cases found : memory.document? collection identifier with
  | none =>
      have whole : memory.step (.deleteDocument collection identifier control sequence) =
          (.failed (.database (.notFound identifier)), memory) := by
        rw [step, delete, found]
        rfl
      refine .of_same_answer lends carried whole ?_ rfl rfl
      simp only [Request.renumber, step, delete, document?_share, found]
      rfl
  | some stored =>
      have check := isConflict_ranked (keepsOwn.isOwn found) control isOwn
      cases conflict : isConflict stored control sequence with
      | true =>
          have whole : memory.step (.deleteDocument collection identifier control sequence) =
              (.failed (.database (.conflict identifier)), memory) := by
            simp only [step, delete, found, conflict]
            rfl
          refine .of_same_answer lends carried whole ?_ rfl rfl
          simp only [Request.renumber, step, delete, document?_share, found, Option.map_some, check,
            conflict]
          rfl
      | false =>
          have whole : memory.step (.deleteDocument collection identifier control sequence) =
              (.answer .nothing, memory.forget collection identifier) := by
            simp only [step, delete, found, conflict]
            rfl
          refine .of_same_answer lends carried whole ?_ rfl rfl
          simp only [Request.renumber, step, delete, document?_share, found, Option.map_some, check,
            conflict, ← forget_share]
          rfl

theorem follows_purgeDocument [Machine]
    (lends : ContentStore.Lends passed lent contents memory.contents) (identifier : String) :
    Follows own collection passed lent contents memory (.purgeDocument collection identifier) := by
  cases found : memory.document? collection identifier with
  | none =>
      have whole : memory.step (.purgeDocument collection identifier) =
          (.failed (.database (.notFound identifier)), memory) := by
        rw [step, purge, found]
        rfl
      refine .of_same_answer lends rfl whole ?_ rfl rfl
      simp only [Request.renumber, step, purge, document?_share, found]
      rfl
  | some stored =>
      have whole : memory.step (.purgeDocument collection identifier) =
          (.answer .nothing, memory.forget collection identifier) := by
        rw [step, purge, found]
        rfl
      refine .of_same_answer lends rfl whole ?_ rfl rfl
      simp only [Request.renumber, step, purge, document?_share, found, ← forget_share]
      rfl

theorem follows_setExpiration [Machine]
    (lends : ContentStore.Lends passed lent contents memory.contents) (identifier : String)
    (expiration : Option String) :
    Follows own collection passed lent contents memory
      (.setExpiration collection identifier expiration) := by
  cases found : memory.document? collection identifier with
  | none =>
      have whole : memory.step (.setExpiration collection identifier expiration) =
          (.failed (.database (.notFound identifier)), memory) := by
        simp only [step, setExpiration, found]
        rfl
      refine .of_same_answer lends rfl whole ?_ rfl rfl
      simp only [Request.renumber, step, setExpiration, document?_share, found]
      rfl
  | some stored =>
      cases expiration with
      | none =>
          have whole : memory.step (.setExpiration collection identifier none) =
              (.answer .nothing, { memory with
                expirations := Table.remove memory.expirations (collection, identifier) }) := by
            rw [step, setExpiration, found]
            rfl
          refine .of_same_answer lends rfl whole ?_ rfl rfl
          simp only [Request.renumber, step, setExpiration, document?_share, found, Option.map_some]
          simp only [share, Table.share_remove]
          rfl
      | some time =>
          have whole : memory.step (.setExpiration collection identifier (some time)) =
              (.answer .nothing, { memory with
                expirations := Table.put memory.expirations (collection, identifier) time }) := by
            rw [step, setExpiration, found]
            rfl
          refine .of_same_answer lends rfl whole ?_ rfl rfl
          simp only [Request.renumber, step, setExpiration, document?_share, found, Option.map_some]
          simp only [share, Table.share_put]
          rfl

theorem follows_createIndex [Machine]
    (lends : ContentStore.Lends passed lent contents memory.contents) (name : String)
    (definition : Tree) :
    Follows own collection passed lent contents memory
      (.createIndex collection name definition) := by
  cases copying : definition.throughText false with
  | error failure =>
      have whole : memory.step (.createIndex collection name definition) =
          (.failed failure, memory) := by rw [step, createIndex, copying]
      refine .of_same_answer lends rfl whole ?_ rfl rfl
      simp only [Request.renumber, step, createIndex, copying]
  | ok copied =>
      refine ⟨contents, ?_, ?_, .same rfl ?_⟩
      all_goals simp only [step, createIndex, Request.renumber, copying]
      · simp only [share, Table.share_put, id]
      · exact lends
      · rfl

theorem follows_deleteIndex [Machine]
    (lends : ContentStore.Lends passed lent contents memory.contents) (name : String) :
    Follows own collection passed lent contents memory (.deleteIndex collection name) := by
  refine ⟨contents, ?_, lends, .same rfl rfl⟩
  simp only [step, Request.renumber, share, Table.share_remove]

theorem follows_getIndexes [Machine]
    (lends : ContentStore.Lends passed lent contents memory.contents) :
    Follows own collection passed lent contents memory (.getIndexes collection) := by
  refine ⟨contents, rfl, lends, .same rfl ?_⟩
  simp only [step, Request.renumber, indexNames, share, namesIn_share]
  rfl

theorem follows_getCount [Machine]
    (lends : ContentStore.Lends passed lent contents memory.contents) :
    Follows own collection passed lent contents memory (.getCount collection) := by
  refine ⟨contents, rfl, lends, .same rfl ?_⟩
  simp only [step, Request.renumber, count, share, namesIn_share]
  rfl

theorem follows_getExpiration [Machine]
    (lends : ContentStore.Lends passed lent contents memory.contents) (identifier : String) :
    Follows own collection passed lent contents memory (.getExpiration collection identifier) := by
  refine ⟨contents, rfl, lends, .same rfl ?_⟩
  simp only [step, Request.renumber, share, Table.value?_share, Option.map_id]
  rfl

/-- The digest that is named is the same, so the two answers differ only where its content is
lent. -/
theorem follows_getBlobContent [Machine]
    (lends : ContentStore.Lends passed lent contents memory.contents) (identifier key : String) :
    Follows own collection passed lent contents memory
      (.getBlobContent collection identifier key) := by
  have named : ((memory.share own collection contents).document? collection identifier).bind
      (digest? · key) = (memory.document? collection identifier).bind (digest? · key) := by
    rw [document?_share]
    cases memory.document? collection identifier <;> rfl
  refine ⟨contents, rfl, lends, ?_⟩
  simp only [step, blobContent, Request.renumber, named, contents_share]
  generalize (memory.document? collection identifier).bind (digest? · key) = digest
  cases digest with
  | none => exact .same rfl rfl
  | some digest =>
      cases digest with
      | text digest =>
          dsimp only
          cases alone : Table.value? contents digest with
          | some bytes =>
              rw [lends.kept digest bytes alone]
              exact .same rfl rfl
          | none =>
              cases whole : Table.value? memory.contents digest with
              | none => exact .same rfl rfl
              | some bytes =>
                  rcases lends.origin digest bytes whole with kept | foreign
                  · rw [alone] at kept
                    cases kept
                  · exact .lent foreign
      | _ => exact .same rfl rfl

/-- Both put the same contents away, since both are in conflict or neither is. -/
theorem lends_save [Machine] (lends : ContentStore.Lends passed lent contents memory.contents)
    {identifier : String} {data : Tree} {control : Option ConcurrencyControl}
    {sequence position : Int} (arrives : data.contents ⊆ passed)
    (same : (memory.share own collection contents).hasConflict collection identifier control
      position = memory.hasConflict collection identifier control sequence) :
    ContentStore.Lends passed lent
      ((memory.share own collection contents).save collection identifier data control
        position).2.contents
      (memory.save collection identifier data control sequence).2.contents := by
  have looked : ∀ digest, Table.value? ((memory.share own collection contents).save collection
        identifier data control position).2.contents digest =
      (ContentStore.lastUnder digest (memory.arrivalsOfSave collection identifier data control
        sequence)).or (Table.value? contents digest) := by
    intro digest
    rw [value?_contents_save, arrivalsOfSave, same]
    rfl
  have gains := gains_save (memory.share own collection contents) collection identifier data control
    position
  refine ⟨fun digest bytes found => ?_, fun digest bytes => ?_, fun digest bytes => ?_⟩
  · rcases gains.origin digest bytes found with old | ⟨member, named⟩
    · exact lends.named digest bytes old
    · exact ⟨arrives member, named⟩
  · rw [looked, value?_contents_save]
    cases ContentStore.lastUnder digest _ with
    | some last => exact id
    | none => exact lends.kept digest bytes
  · rw [looked, value?_contents_save]
    cases ContentStore.lastUnder digest _ with
    | some last => exact Or.inl
    | none => exact lends.origin digest bytes

/-- A version that the collection saves takes the sequence that is next among its own. -/
theorem follows_save [Machine] (keepsOwn : memory.KeepsOwn own collection)
    (lends : ContentStore.Lends passed lent contents memory.contents) {identifier : String}
    {data : Tree} {control : Option ConcurrencyControl} {sequence : Int}
    (arrives : data.contents ⊆ passed)
    (carriesOwn : (Request.save collection identifier data control sequence).CarriesOwn own)
    (numbersOwn : NumbersOwn own collection memory
      (.save collection identifier data control sequence)) :
    Follows own collection passed lent contents memory
      (.save collection identifier data control sequence) := by
  have carried := Request.renumber_position carriesOwn
  obtain ⟨sequence, isOwn, rfl⟩ := carriesOwn sequence rfl
  have same : (memory.share own collection contents).hasConflict collection identifier control
      (position own sequence) = memory.hasConflict collection identifier control sequence :=
    hasConflict_share keepsOwn control isOwn
  have lendsAfter := lends_save lends arrives same
  cases conflict : memory.hasConflict collection identifier control sequence with
  | true =>
      refine ⟨_, ?_, lendsAfter, .same carried.symm ?_⟩
      all_goals
        simp only [step, Request.renumber, save_of_conflict conflict,
          save_of_conflict (same.trans conflict)]
        rfl
  | false =>
      have aloneFree := same.trans conflict
      cases form : data.storedForm with
      | error failure =>
          obtain ⟨after, saving⟩ := save_of_storedForm_error conflict form
          obtain ⟨aloneAfter, aloneSaving⟩ := save_of_storedForm_error aloneFree form
          refine ⟨_, ?_, lendsAfter, .same carried.symm ?_⟩
          all_goals
            simp only [step, Request.renumber, saving, aloneSaving]
            rfl
      | ok stored =>
          obtain ⟨after, saving⟩ := save_of_storedForm_ok conflict form
          obtain ⟨aloneAfter, aloneSaving⟩ := save_of_storedForm_ok aloneFree form
          have nextOwn : own memory.nextSequence := by
            refine (numbersOwn ?_).2 (by simp [Request.concerns, Request.collection?])
            simp only [step, saving]
            exact Nat.succ_ne_self _
          refine ⟨_, ?_, lendsAfter, .same carried.symm ?_⟩
          all_goals simp only [step, Request.renumber, saving, aloneSaving, nextVersion_share]
          · simp only [share, Table.share_put, Nat.count_succ, if_pos nextOwn]
          · simp only [Outcome.renumber, Except.map, Reply.renumber, resultOf, ranked, nextVersion,
              sequenceAt_count nextOwn]

/-- Whatever a request about the collection does, the collection alone does too. -/
theorem follows_of_concerns [Machine] (concerned : request.concerns collection = true)
    (keepsOwn : memory.KeepsOwn own collection)
    (lends : ContentStore.Lends passed lent contents memory.contents)
    (arrives : request.passed ⊆ passed) (carriesOwn : request.CarriesOwn own)
    (numbersOwn : NumbersOwn own collection memory request) :
    Follows own collection passed lent contents memory request := by
  have about : ∀ {other : Address}, decide (other = collection) = true → other = collection :=
    fun same => of_decide_eq_true same
  cases request with
  | save other identifier data control sequence =>
      obtain rfl := about concerned
      exact follows_save keepsOwn lends arrives carriesOwn numbersOwn
  | getDocument other identifier =>
      obtain rfl := about concerned
      exact follows_getDocument keepsOwn lends identifier
  | deleteDocument other identifier control sequence =>
      obtain rfl := about concerned
      exact follows_deleteDocument keepsOwn lends identifier control carriesOwn
  | purgeDocument other identifier =>
      obtain rfl := about concerned
      exact follows_purgeDocument lends identifier
  | getBlobContent other identifier key =>
      obtain rfl := about concerned
      exact follows_getBlobContent lends identifier key
  | createIndex other name definition =>
      obtain rfl := about concerned
      exact follows_createIndex lends name definition
  | deleteIndex other name =>
      obtain rfl := about concerned
      exact follows_deleteIndex lends name
  | getIndexes other =>
      obtain rfl := about concerned
      exact follows_getIndexes lends
  | getCount other =>
      obtain rfl := about concerned
      exact follows_getCount lends
  | setExpiration other identifier expiration =>
      obtain rfl := about concerned
      exact follows_setExpiration lends identifier expiration
  | getExpiration other identifier =>
      obtain rfl := about concerned
      exact follows_getExpiration lends identifier
  | executeQuery database query parameters => exact ⟨contents, rfl, lends, .same rfl rfl⟩
  | explainQuery database query parameters => exact ⟨contents, rfl, lends, .same rfl rfl⟩

theorem collection?_of_change {event : Event} {key : Address × String} {change : Change}
    (changed : event.change? = some (key, change)) : event.request.collection? = some key.1 := by
  unfold Event.change? at changed
  split at changed
  case h_5 => cases changed
  all_goals
    cases changed
    rfl

variable [Machine]

/-- A request about another collection changes no index of this one, and no query. -/
theorem indexes_step_of_foreign (memory : Memory) (foreign : request.concerns collection = false) :
    Table.share collection id (memory.step request).2.indexes =
        Table.share collection id memory.indexes
      ∧ (memory.step request).2.queries = memory.queries := by
  have apart : ∀ {other : Address}, decide (other = collection) = false → other ≠ collection :=
    fun different => of_decide_eq_false different
  cases request with
  | save other identifier data control sequence =>
      rw [step_save]
      cases conflict : memory.hasConflict other identifier control sequence with
      | true => simp only [save_of_conflict conflict, and_self]
      | false =>
          cases form : data.storedForm with
          | error failure =>
              obtain ⟨after, saving⟩ := save_of_storedForm_error conflict form
              simp only [saving, and_self]
          | ok stored =>
              obtain ⟨after, saving⟩ := save_of_storedForm_ok conflict form
              simp only [saving, and_self]
  | getDocument other identifier =>
      simp only [step]
      cases memory.document? other identifier <;> exact ⟨rfl, rfl⟩
  | deleteDocument other identifier control sequence =>
      simp only [step, delete]
      cases memory.document? other identifier with
      | none => exact ⟨rfl, rfl⟩
      | some existing =>
          dsimp only
          split <;> exact ⟨rfl, rfl⟩
  | purgeDocument other identifier =>
      simp only [step, purge]
      cases memory.document? other identifier <;> exact ⟨rfl, rfl⟩
  | createIndex other name definition =>
      simp only [step, createIndex]
      cases definition.throughText false with
      | error failure => exact ⟨rfl, rfl⟩
      | ok copied => exact ⟨Table.share_put_of_ne id (apart foreign) _ _ _, rfl⟩
  | deleteIndex other name => exact ⟨Table.share_remove_of_ne id (apart foreign) _ _, rfl⟩
  | setExpiration other identifier expiration =>
      simp only [step, setExpiration]
      cases memory.document? other identifier with
      | none => exact ⟨rfl, rfl⟩
      | some existing => cases expiration <;> exact ⟨rfl, rfl⟩
  | executeQuery database query parameters => cases foreign
  | explainQuery database query parameters => cases foreign
  | _ => exact ⟨rfl, rfl⟩

/-- A change to a document of another collection is not seen in the share. -/
theorem share_of_effect {change : Option ((Address × String) × Change)} {after : Memory}
    (effect : memory.Effect change after)
    (foreign : ∀ key changed, change = some (key, changed) → key.1 ≠ collection)
    (notOwn : after.nextSequence ≠ memory.nextSequence → ¬own memory.nextSequence) :
    Table.share collection (ranked own) after.documents =
        Table.share collection (ranked own) memory.documents
      ∧ Table.share collection id after.expirations = Table.share collection id memory.expirations
      ∧ Nat.count own after.nextSequence = Nat.count own memory.nextSequence := by
  cases effect with
  | idle documents expirations nextSequence => simp only [documents, expirations, nextSequence, and_self]
  | saved _ documents expirations nextSequence =>
      have unused : ¬own memory.nextSequence := notOwn (by omega)
      simp only [documents, expirations, nextSequence, Nat.count_succ, if_neg unused,
        Table.share_put_of_ne _ (foreign _ _ rfl), Nat.add_zero, and_self]
  | removed _ =>
      simp only [forget, Table.share_remove_of_ne _ (foreign _ _ rfl), and_self]
  | @expires other identifier expiration after _ documents expirations nextSequence =>
      simp only [documents, expirations, nextSequence, and_true, true_and]
      cases expiration with
      | none => exact Table.share_remove_of_ne _ (foreign _ _ rfl) _ _
      | some time => exact Table.share_put_of_ne _ (foreign _ _ rfl) _ _ _

/-- A request about another collection leaves the share of this one as it is. -/
theorem share_step_of_foreign (foreign : request.concerns collection = false)
    (numbersOwn : NumbersOwn own collection memory request) :
    (memory.step request).2.share own collection contents = memory.share own collection contents := by
  have apart : ∀ key changed, Event.change? ⟨request, (memory.step request).1⟩ = some (key, changed) →
      key.1 ≠ collection := by
    rintro key changed change rfl
    have about : request.collection? = some key.1 := collection?_of_change change
    simp [Request.concerns, about] at foreign
  have notOwn : (memory.step request).2.nextSequence ≠ memory.nextSequence →
      ¬own memory.nextSequence := by
    intro used isOwn
    rw [(numbersOwn used).1 isOwn] at foreign
    cases foreign
  obtain ⟨documents, expirations, nextSequence⟩ :=
    share_of_effect (memory.effect_step request) apart notOwn
  obtain ⟨indexes, queries⟩ := memory.indexes_step_of_foreign foreign
  simp only [share, documents, expirations, nextSequence, indexes, queries]

omit [DecidablePred own] in
theorem KeepsOwn.of_effect (keepsOwn : memory.KeepsOwn own collection)
    {change : Option ((Address × String) × Change)} {after : Memory}
    (effect : memory.Effect change after)
    (fresh : ∀ identifier data result,
      change = some ((collection, identifier), .saved data result) → own memory.nextSequence) :
    after.KeepsOwn own collection := by
  cases effect with
  | idle documents _ _ =>
      refine ⟨documents ▸ keepsOwn.distinct, fun found => ?_⟩
      rw [document?, documents] at found
      exact keepsOwn.isOwn found
  | expires _ documents _ _ =>
      refine ⟨documents ▸ keepsOwn.distinct, fun found => ?_⟩
      rw [document?, documents] at found
      exact keepsOwn.isOwn found
  | removed _ =>
      refine ⟨keepsOwn.distinct.remove _, fun found => ?_⟩
      rw [document?, forget, Table.value?_remove keepsOwn.distinct] at found
      split at found
      · cases found
      · exact keepsOwn.isOwn found
  | saved _ documents _ _ =>
      refine ⟨documents ▸ keepsOwn.distinct.put _ _, fun found => ?_⟩
      rw [document?, documents, Table.value?_put] at found
      split at found
      · next same =>
          obtain ⟨rfl, rfl⟩ := Prod.mk.inj same
          obtain rfl := Option.some.inj found
          exact fresh _ _ _ rfl
      · exact keepsOwn.isOwn found

omit [DecidablePred own] in
theorem KeepsOwn.step (keepsOwn : memory.KeepsOwn own collection)
    (numbersOwn : NumbersOwn own collection memory request) :
    (memory.step request).2.KeepsOwn own collection := by
  refine keepsOwn.of_effect (memory.effect_step request) fun identifier data result change => ?_
  have about : request.collection? = some collection := collection?_of_change change
  have counted := nextSequence_step memory request
  rw [Event.savedReply?_of_change change] at counted
  refine (numbersOwn ?_).2 (by simp [Request.concerns, about])
  rw [counted.2]
  exact Nat.succ_ne_self _

theorem lends_step_of_foreign
    (lends : ContentStore.Lends passed lent contents memory.contents)
    (collisionFree : Digest.CollisionFree passed) (arrives : request.passed ⊆ passed)
    (lending : request.passed ⊆ lent) :
    ContentStore.Lends passed lent contents (memory.step request).2.contents := by
  have gains := memory.gains_step request
  refine ⟨lends.named, fun digest bytes found => ?_, fun digest bytes found => ?_⟩
  · -- Another content under this digest would be a collision.
    have present : (Table.value? (memory.step request).2.contents digest).isSome :=
      gains.keeps digest (by rw [lends.kept digest bytes found]; rfl)
    obtain ⟨held, holding⟩ := Option.isSome_iff_exists.1 present
    obtain ⟨member, named⟩ := lends.named digest bytes found
    rcases gains.origin digest held holding with old | ⟨heldPassed, heldNamed⟩
    · rw [holding, ← old, lends.kept digest bytes found]
    · have same := Digest.sha1_eq_of_contentDigest_eq (heldNamed.symm.trans named)
      rw [holding, collisionFree held (arrives heldPassed) bytes member same]
  · rcases gains.origin digest bytes found with old | ⟨member, _⟩
    · exact lends.origin digest bytes old
    · exact .inr (lending member)

end Steps

end Memory

end DocumentStore
