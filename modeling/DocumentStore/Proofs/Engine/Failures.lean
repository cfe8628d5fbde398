import DocumentStore.Proofs.Engine.Properties

/-!
Contract: what a request that fails leaves in an engine.

Owns: the contents that a walk puts away before its first fault, the exact condition under
which a save that fails leaves the content store as it was, and that no request that fails
changes anything else.

Does not own: what callers of the engine do about a failure.

The walk puts a content away as soon as it meets its blob. A fault at a later place of the bag
ends the walk and the save, and the contents met before it stay.
-/

set_option autoImplicit false

namespace DocumentStore

namespace ContentStore

/-- Contents put away one after another, each under its digest. -/
def putAll (contents : ContentStore) (arriving : List Digest.Bytes) : ContentStore :=
  arriving.foldl (fun held bytes => Table.put held (Digest.contentDigest bytes) bytes) contents

/-- The last of some contents with a digest. -/
def lastUnder (digest : String) (arriving : List Digest.Bytes) : Option Digest.Bytes :=
  arriving.reverse.find? fun bytes => Digest.contentDigest bytes = digest

theorem putAll_append (contents : ContentStore) (first second : List Digest.Bytes) :
    putAll contents (first ++ second) = putAll (putAll contents first) second :=
  List.foldl_append

/-- Under a digest stands the last content that arrived with it, or what stood there before. -/
theorem value?_putAll (contents : ContentStore) (arriving : List Digest.Bytes) (digest : String) :
    Table.value? (putAll contents arriving) digest =
      (lastUnder digest arriving).or (Table.value? contents digest) := by
  induction arriving generalizing contents with
  | nil => rfl
  | cons bytes rest inductionHypothesis =>
      show Table.value? (putAll (Table.put contents _ bytes) rest) digest = _
      rw [inductionHypothesis, Table.value?_put, lastUnder, lastUnder, List.reverse_cons,
        List.find?_append, Option.or_assoc]
      congr 1
      by_cases same : Digest.contentDigest bytes = digest <;> simp [same]

variable [Machine]

mutual

/-- The contents that detaching a tree puts away before it ends. -/
def arrivals : Json → List Digest.Bytes
  | .array items => arrivalsOfItems items
  | .object fields =>
      match tagged? fields with
      | some data => (content data).toOption.toList
      | none => arrivalsOfFields fields
  | _ => []

/-- The items after a faulty one are not reached. -/
def arrivalsOfItems : List Json → List Digest.Bytes
  | [] => []
  | item :: rest =>
      match detached item with
      | .ok _ => arrivals item ++ arrivalsOfItems rest
      | .error _ => arrivals item

def arrivalsOfFields : List (String × Json) → List Digest.Bytes
  | [] => []
  | (_, value) :: rest =>
      match detached value with
      | .ok _ => arrivals value ++ arrivalsOfFields rest
      | .error _ => arrivals value

end

mutual

/-- Detaching a tree puts its arrivals away, whether it ends well or not. -/
theorem detach_snd (contents : ContentStore) (json : Json) :
    (detach contents json).2 = putAll contents (arrivals json) := by
  cases json with
  | array items =>
      have walked := detachItems_snd contents items
      rw [detach, arrivals, ← walked]
      cases detachItems contents items with
      | mk result after => cases result <;> rfl
  | object fields =>
      rw [detach, arrivals]
      cases tagged? fields with
      | some data =>
          dsimp only
          cases content data <;> rfl
      | none =>
          have walked := detachFields_snd contents fields
          dsimp only
          rw [← walked]
          cases detachFields contents fields with
          | mk result after => cases result <;> rfl
  | _ => rfl

theorem detachItems_snd (contents : ContentStore) (items : List Json) :
    (detachItems contents items).2 = putAll contents (arrivalsOfItems items) := by
  cases items with
  | nil => rfl
  | cons item rest =>
      have first := detach_snd contents item
      rw [detachItems, arrivalsOfItems, ← detach_fst contents item]
      cases step : detach contents item with
      | mk result after =>
          rw [step] at first
          cases result with
          | error fault => exact first
          | ok detachedItem =>
              have others := detachItems_snd after rest
              dsimp only at first ⊢
              rw [putAll_append, ← first, ← others]
              cases detachItems after rest with
              | mk remaining final => cases remaining <;> rfl

theorem detachFields_snd (contents : ContentStore) (fields : List (String × Json)) :
    (detachFields contents fields).2 = putAll contents (arrivalsOfFields fields) := by
  cases fields with
  | nil => rfl
  | cons field rest =>
      obtain ⟨key, value⟩ := field
      have first := detach_snd contents value
      rw [detachFields, arrivalsOfFields, ← detach_fst contents value]
      cases step : detach contents value with
      | mk result after =>
          rw [step] at first
          cases result with
          | error fault => exact first
          | ok detachedValue =>
              have others := detachFields_snd after rest
              dsimp only at first ⊢
              rw [putAll_append, ← first, ← others]
              cases detachFields after rest with
              | mk remaining final => cases remaining <;> rfl

end

end ContentStore

/-- The contents that storing a bag puts away before it ends. -/
def Tree.arrivals [Machine] (data : Tree) : List Digest.Bytes :=
  match data.throughText true with
  | .ok copied => ContentStore.arrivals copied
  | .error _ => []

namespace Memory

section Failing

variable [Machine] {memory : Memory} {collection : Address} {identifier : String} {data : Tree}
  {control : Option ConcurrencyControl} {sequence : Int} {failure : Failure}

/-- A bag without a text is refused before anything is put away. -/
theorem save_of_refused
    (free : memory.hasConflict collection identifier control sequence = false)
    (copying : data.throughText true = .error failure) :
    memory.save collection identifier data control sequence = (.error failure, memory) := by
  unfold hasConflict at free
  unfold save
  rw [if_neg (by simp [free]), copying]

theorem save_of_fault {copied : Json} {fault : ByteFault}
    (free : memory.hasConflict collection identifier control sequence = false)
    (copying : data.throughText true = .ok copied)
    (detaching : ContentStore.detached copied = .error fault) :
    memory.save collection identifier data control sequence =
      (.error (.bytes fault),
        { memory with contents := ContentStore.putAll memory.contents data.arrivals }) := by
  have walked : ContentStore.detach memory.contents copied =
      (.error fault, ContentStore.putAll memory.contents data.arrivals) := by
    apply Prod.ext
    · rw [ContentStore.detach_fst, detaching]
    · rw [ContentStore.detach_snd, Tree.arrivals, copying]
  unfold hasConflict at free
  unfold save
  rw [if_neg (by simp [free]), copying]
  dsimp only
  rw [walked]

/-- Without a conflict a save puts the arrivals of its bag away, whether it ends well or not. -/
theorem contents_save (free : memory.hasConflict collection identifier control sequence = false) :
    (memory.save collection identifier data control sequence).2.contents =
      ContentStore.putAll memory.contents data.arrivals := by
  unfold hasConflict at free
  unfold save
  rw [if_neg (by simp [free]), Tree.arrivals]
  cases data.throughText true with
  | error cause => rfl
  | ok copied =>
      dsimp only
      rw [← ContentStore.detach_snd]
      cases ContentStore.detach memory.contents copied with
      | mk result after => cases result <;> rfl

/-- What a save that fails does: a conflict and a bag without a text change nothing, and a fault
of a blob comes after the contents before it. -/
theorem save_error_cases
    (failed : (memory.save collection identifier data control sequence).1 = .error failure) :
    (memory.hasConflict collection identifier control sequence = true
        ∧ memory.save collection identifier data control sequence = (.error failure, memory))
      ∨ (memory.hasConflict collection identifier control sequence = false ∧ data.arrivals = []
        ∧ memory.save collection identifier data control sequence = (.error failure, memory))
      ∨ (memory.hasConflict collection identifier control sequence = false
        ∧ (∃ fault, failure = .bytes fault)
        ∧ memory.save collection identifier data control sequence =
          (.error failure,
            { memory with contents := ContentStore.putAll memory.contents data.arrivals })) := by
  cases conflict : memory.hasConflict collection identifier control sequence with
  | true =>
      have saving : memory.save collection identifier data control sequence =
          (.error (.database (.conflict identifier)), memory) := save_of_conflict conflict
      rw [saving] at failed ⊢
      cases failed
      exact .inl ⟨rfl, rfl⟩
  | false =>
      cases copying : data.throughText true with
      | error cause =>
          have saving := save_of_refused conflict copying
          have none : data.arrivals = [] := by rw [Tree.arrivals, copying]
          rw [saving] at failed ⊢
          cases failed
          exact .inr (.inl ⟨rfl, none, rfl⟩)
      | ok copied =>
          cases detaching : ContentStore.detached copied with
          | error fault =>
              have saving := save_of_fault conflict copying detaching
              rw [saving] at failed ⊢
              cases failed
              exact .inr (.inr ⟨rfl, ⟨fault, rfl⟩, rfl⟩)
          | ok stored =>
              have form : data.storedForm = .ok stored := by
                rw [Tree.storedForm, copying]
                show (ContentStore.detached copied).mapError Failure.bytes = _
                rw [detaching]
                rfl
              obtain ⟨contents, saving⟩ := save_of_storedForm_ok conflict form
              rw [saving] at failed
              cases failed

/-- The contents that a save puts away: none where there is a conflict. -/
def arrivalsOfSave (memory : Memory) (collection : Address) (identifier : String) (data : Tree)
    (control : Option ConcurrencyControl) (sequence : Int) : List Digest.Bytes :=
  if memory.hasConflict collection identifier control sequence then [] else data.arrivals

theorem value?_contents_save (digest : String) :
    Table.value? (memory.save collection identifier data control sequence).2.contents digest =
      (ContentStore.lastUnder digest
        (memory.arrivalsOfSave collection identifier data control sequence)).or
          (Table.value? memory.contents digest) := by
  rw [arrivalsOfSave]
  cases conflict : memory.hasConflict collection identifier control sequence with
  | true =>
      rw [save_of_conflict conflict]
      rfl
  | false =>
      rw [contents_save conflict]
      exact ContentStore.value?_putAll memory.contents data.arrivals digest

theorem save_unchanged_of_other_failure
    (failed : (memory.save collection identifier data control sequence).1 = .error failure)
    (other : ∀ fault, failure ≠ .bytes fault) :
    (memory.save collection identifier data control sequence).2 = memory := by
  rcases save_error_cases failed with ⟨_, saving⟩ | ⟨_, _, saving⟩ | ⟨_, ⟨fault, same⟩, _⟩
  · rw [saving]
  · rw [saving]
  · exact absurd same (other fault)

end Failing

theorem step_save [Machine] (memory : Memory) (collection : Address) (identifier : String)
    (data : Tree) (control : Option ConcurrencyControl) (sequence : Int) :
    (memory.step (.save collection identifier data control sequence)).2 =
      (memory.save collection identifier data control sequence).2 := rfl

theorem eq_error_of_map {Result Final : Type} {result : Except Failure Result}
    {transform : Result → Final} {failure : Failure}
    (failed : result.map transform = .error failure) : result = .error failure := by
  cases result with
  | ok value => cases failed
  | error cause =>
      cases failed
      rfl

/-- Two states of an engine have the same documents, indexes, expirations, queries and count of
sequences. -/
def SameRecords (memory after : Memory) : Prop :=
  after = { memory with contents := after.contents }

theorem SameRecords.refl (memory : Memory) : memory.SameRecords memory := rfl

theorem SameRecords.trans {memory between after : Memory} (first : memory.SameRecords between)
    (second : between.SameRecords after) : memory.SameRecords after := by
  rw [SameRecords] at first second ⊢
  rw [second, first]

section Unchanged

variable {memory : Memory} {collection : Address} {identifier name : String} {failure : Failure}

theorem delete_of_failed {control : Option ConcurrencyControl} {sequence : Int}
    (failed : (memory.delete collection identifier control sequence).1 = .error failure) :
    (memory.delete collection identifier control sequence).2 = memory := by
  unfold delete at failed ⊢
  cases found : memory.document? collection identifier with
  | none => rfl
  | some existing =>
      rw [found] at failed
      dsimp only at failed ⊢
      split at failed
      · next conflict => rw [if_pos conflict]
      · cases failed

theorem purge_of_failed (failed : (memory.purge collection identifier).1 = .error failure) :
    (memory.purge collection identifier).2 = memory := by
  unfold purge at failed ⊢
  cases found : memory.document? collection identifier with
  | none => rfl
  | some existing =>
      rw [found] at failed
      cases failed

theorem createIndex_of_failed [Machine] {definition : Tree}
    (failed : (memory.step (.createIndex collection name definition)).1.result = .error failure) :
    (memory.step (.createIndex collection name definition)).2 = memory := by
  simp only [step, createIndex] at failed ⊢
  cases copying : definition.throughText false with
  | error cause => rfl
  | ok copied =>
      rw [copying] at failed
      cases failed

theorem setExpiration_of_failed {expiration : Option String}
    (failed : (memory.setExpiration collection identifier expiration).1 = .error failure) :
    (memory.setExpiration collection identifier expiration).2 = memory := by
  unfold setExpiration at failed ⊢
  cases found : memory.document? collection identifier with
  | none => rfl
  | some existing =>
      rw [found] at failed
      cases expiration <;> cases failed

end Unchanged

/-- A request that fails changes the content store at most. -/
theorem sameRecords_of_failed [Machine] (memory : Memory) (request : Request Tree)
    {failure : Failure} (failed : (memory.step request).1.result = .error failure) :
    memory.SameRecords (memory.step request).2 := by
  have unchanged : ∀ {after : Memory}, after = memory → memory.SameRecords after := by
    rintro _ rfl
    rfl
  cases request with
  | save collection identifier data control sequence =>
      rw [step_save]
      rcases save_error_cases (eq_error_of_map failed) with
        ⟨_, saving⟩ | ⟨_, _, saving⟩ | ⟨_, _, saving⟩
      all_goals
        rw [saving]
        rfl
  | deleteDocument collection identifier control sequence =>
      exact unchanged (delete_of_failed (eq_error_of_map failed))
  | purgeDocument collection identifier =>
      exact unchanged (purge_of_failed (eq_error_of_map failed))
  | createIndex collection name definition =>
      exact unchanged (createIndex_of_failed failed)
  | setExpiration collection identifier expiration =>
      exact unchanged (setExpiration_of_failed (eq_error_of_map failed))
  | getDocument collection identifier =>
      simp only [step]
      cases memory.document? collection identifier <;> rfl
  | deleteIndex collection name => cases failed
  | executeQuery database query parameters => cases failed
  | _ => rfl

/-- A save that fails leaves the contents it met before its fault, each under its digest. The
content store answers as before exactly when it held these contents already; a save that fails
for anything but the fault of a blob changes nothing at all. -/
theorem failed_save_keeps_contents_iff [Machine] (memory : Memory) (collection : Address)
    (identifier : String) (data : Tree) (control : Option ConcurrencyControl) (sequence : Int)
    {failure : Failure}
    (failed : (memory.step (.save collection identifier data control sequence)).1.result =
      .error failure) :
    let after := (memory.step (.save collection identifier data control sequence)).2
    let arrived := memory.arrivalsOfSave collection identifier data control sequence
    (∀ digest, Table.value? after.contents digest =
        (ContentStore.lastUnder digest arrived).or (Table.value? memory.contents digest))
      ∧ ((∀ digest, Table.value? after.contents digest = Table.value? memory.contents digest) ↔
        ∀ digest bytes, ContentStore.lastUnder digest arrived = some bytes →
          Table.value? memory.contents digest = some bytes)
      ∧ ((∀ fault, failure ≠ .bytes fault) → after = memory) := by
  intro after arrived
  have failedInside := eq_error_of_map failed
  have looked : ∀ digest, Table.value? after.contents digest =
      (ContentStore.lastUnder digest arrived).or (Table.value? memory.contents digest) :=
    value?_contents_save
  refine ⟨looked, ?_, save_unchanged_of_other_failure failedInside⟩
  constructor
  · intro same digest bytes last
    rw [← same digest, looked digest, last]
    rfl
  · intro held digest
    rw [looked digest]
    cases last : ContentStore.lastUnder digest arrived with
    | none => rfl
    | some bytes => exact (held digest bytes last).symm

/-- A bag with a blob that can be put away and, after it, one that cannot. -/
def faultyBag : Json :=
  .object [("kept", Tree.taggedContent (.text "text/plain") [104, 105]),
    ("bad", .object [("_type", .text "blob"), ("data", .object [("data", .text "x")])])]

theorem throughText_faultyBag : faultyBag.toTree.throughText true = .ok faultyBag := by
  rw [Tree.throughText_eq]
  rfl

theorem arrivals_faultyBag [Machine] : faultyBag.toTree.arrivals = [[104, 105]] := by
  rw [Tree.arrivals, throughText_faultyBag]
  rfl

theorem step_save_faultyBag [Machine] {memory : Memory}
    (free : memory.hasConflict notes "album" none 0 = false) :
    memory.step (.save notes "album" faultyBag.toTree none 0) =
      (.failed (.bytes .unencodedText),
        { memory with contents := ContentStore.putAll memory.contents [[104, 105]] }) := by
  have detaching : ContentStore.detached faultyBag = .error .unencodedText := rfl
  have saving := save_of_fault free throughText_faultyBag detaching
  rw [arrivals_faultyBag] at saving
  simp only [step, saving]
  rfl

theorem faulty_bag_leaves_content :
    (empty.step (.save notes "album" faultyBag.toTree none 0)).1.result =
        .error (.bytes .unencodedText)
      ∧ ¬∀ digest, Table.value?
          (empty.step (.save notes "album" faultyBag.toTree none 0)).2.contents digest =
            Table.value? empty.contents digest := by
  have failed : (empty.step (.save notes "album" faultyBag.toTree none 0)).1.result =
      .error (.bytes .unencodedText) := by
    rw [step_save_faultyBag rfl]
    rfl
  have exact := failed_save_keeps_contents_iff empty notes "album" faultyBag.toTree none 0 failed
  refine ⟨failed, ?_⟩
  intro same
  have last : ContentStore.lastUnder (Digest.contentDigest [104, 105])
      (empty.arrivalsOfSave notes "album" faultyBag.toTree none 0) = some [104, 105] := by
    rw [arrivalsOfSave, if_neg (by simp [hasConflict, document?, empty]), arrivals_faultyBag]
    simp [ContentStore.lastUnder]
  have held := exact.2.1.1 same _ _ last
  cases held

/-- A bag that names the digest of a content it does not hold. -/
def readerBag : Json :=
  .object [("image", .object [("digest", .text (Digest.contentDigest [104, 105]))])]

/-- An engine with such a document. -/
def readerMemory : Memory :=
  empty.afterRun [.save notes "reader" readerBag.toTree none 0]

theorem throughText_readerBag : readerBag.toTree.throughText true = .ok readerBag := by
  rw [Tree.throughText_eq]
  rfl

theorem contents_readerMemory : readerMemory.contents = [] := by
  have free : empty.hasConflict notes "reader" none 0 = false := rfl
  rw [readerMemory, afterRun_cons, afterRun_nil, step_save, contents_save free, Tree.arrivals,
    throughText_readerBag]
  rfl

theorem document?_readerMemory :
    readerMemory.document? notes "reader" = some (empty.nextVersion notes "reader" readerBag) := by
  have free : empty.hasConflict notes "reader" none 0 = false := rfl
  have form : readerBag.toTree.storedForm = .ok readerBag := by
    rw [Tree.storedForm, throughText_readerBag]
    rfl
  rw [readerMemory, afterRun_cons, afterRun_nil, document?_step_save free form]

theorem document?_of_contents (memory : Memory) (contents : ContentStore) (collection : Address)
    (identifier : String) :
    ({ memory with contents } : Memory).document? collection identifier =
      memory.document? collection identifier := rfl

theorem failed_save_changes_an_answer :
    (readerMemory.step (.getBlobContent notes "reader" "image")).1 =
        .failed (.database (.blobNotFound "image" "reader"))
      ∧ (readerMemory.step (.save notes "album" faultyBag.toTree none 0)).1 =
        .failed (.bytes .unencodedText)
      ∧ ((readerMemory.step (.save notes "album" faultyBag.toTree none 0)).2.step
          (.getBlobContent notes "reader" "image")).1 =
        .answer (.value (.value (.bytes [104, 105]))) := by
  have free : readerMemory.hasConflict notes "album" none 0 = false :=
    hasConflict_of_ne_failOnConflict (by decide)
  have named : (readerMemory.document? notes "reader").bind (digest? · "image") =
      some (.text (Digest.contentDigest [104, 105])) := by
    rw [document?_readerMemory]
    rfl
  have stored : Table.value? (ContentStore.putAll readerMemory.contents [[104, 105]])
      (Digest.contentDigest [104, 105]) = some [104, 105] := by
    rw [ContentStore.value?_putAll]
    simp [ContentStore.lastUnder]
  rw [step_save_faultyBag free]
  refine ⟨?_, rfl, ?_⟩
  · simp only [step, blobContent, named, contents_readerMemory]
    rfl
  · simp only [step, blobContent, document?_of_contents, named, stored]
    rfl

end Memory

end DocumentStore
