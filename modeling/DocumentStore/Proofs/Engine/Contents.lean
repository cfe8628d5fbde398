import DocumentStore.Proofs.Digest.Encoding
import DocumentStore.Proofs.Engine.Properties
import DocumentStore.Document

/-!
Contract: the content of a saved blob stays available.

Owns: the contents that the saves of a run pass to the engine, the invariant that every digest
names the content it was made of, and what is loaded of a blob afterwards.

Does not own: contents that share a hash. Among the contents of a run no two may.

A content is kept under its digest from the save that brings it on. Later saves put contents
under their own digests only, and nothing is taken out, so a description made by any save finds
its content in every later state.
-/

set_option autoImplicit false

namespace DocumentStore

/-! ### What a save brings -/

namespace ContentStore

variable [Machine]

section Walks

variable {contents after : ContentStore}

theorem detach_array_eq_ok {items : List Json} {kept : Json}
    (walked : detach contents (.array items) = (.ok kept, after)) :
    ∃ keptItems, detachItems contents items = (.ok keptItems, after) := by
  rw [detach] at walked
  rcases walk : detachItems contents items with ⟨_ | keptItems, final⟩
  · rw [walk] at walked
    cases walked
  · rw [walk] at walked
    cases walked
    exact ⟨keptItems, rfl⟩

theorem detach_object_eq_ok {fields : List (String × Json)} {kept : Json}
    (walked : detach contents (.object fields) = (.ok kept, after)) :
    (∃ data bytes, tagged? fields = some data ∧ content data = .ok bytes
        ∧ after = Table.put contents (Digest.contentDigest bytes) bytes)
      ∨ (∃ keptFields, tagged? fields = none
        ∧ detachFields contents fields = (.ok keptFields, after)) := by
  rw [detach] at walked
  cases tagged : tagged? fields with
  | some data =>
      rw [tagged] at walked
      cases taken : content data with
      | error fault =>
          simp only [taken] at walked
          cases walked
      | ok bytes =>
          simp only [taken] at walked
          cases walked
          exact .inl ⟨data, bytes, rfl, taken, rfl⟩
  | none =>
      rw [tagged] at walked
      rcases walk : detachFields contents fields with ⟨_ | keptFields, final⟩
      · simp only [walk] at walked
        cases walked
      · simp only [walk] at walked
        cases walked
        exact .inr ⟨keptFields, rfl, rfl⟩

theorem detachItems_cons_eq_ok {item : Json} {rest kept : List Json}
    (walked : detachItems contents (item :: rest) = (.ok kept, after)) :
    ∃ first others between, detach contents item = (.ok first, between)
      ∧ detachItems between rest = (.ok others, after) := by
  rw [detachItems] at walked
  rcases walk : detach contents item with ⟨_ | first, between⟩
  · rw [walk] at walked
    cases walked
  · simp only [walk] at walked
    rcases later : detachItems between rest with ⟨_ | others, final⟩
    · rw [later] at walked
      cases walked
    · rw [later] at walked
      cases walked
      exact ⟨first, others, between, rfl, later⟩

theorem detachFields_cons_eq_ok {key : String} {value : Json} {rest kept : List (String × Json)}
    (walked : detachFields contents ((key, value) :: rest) = (.ok kept, after)) :
    ∃ first others between, detach contents value = (.ok first, between)
      ∧ detachFields between rest = (.ok others, after) := by
  rw [detachFields] at walked
  rcases walk : detach contents value with ⟨_ | first, between⟩
  · rw [walk] at walked
    cases walked
  · simp only [walk] at walked
    rcases later : detachFields between rest with ⟨_ | others, final⟩
    · rw [later] at walked
      cases walked
    · rw [later] at walked
      cases walked
      exact ⟨first, others, between, rfl, later⟩

end Walks

mutual

/-- After a walk that ends well, the contents of the tree are all there. -/
theorem isSome_detach (contents : ContentStore) (json : Json) {kept : Json} {after : ContentStore}
    (walked : detach contents json = (.ok kept, after)) :
    ∀ bytes ∈ blobContents json, (Table.value? after (Digest.contentDigest bytes)).isSome := by
  intro bytes member
  cases json with
  | array items =>
      obtain ⟨keptItems, inner⟩ := detach_array_eq_ok walked
      exact isSome_detachItems contents items inner bytes member
  | object fields =>
      rw [blobContents] at member
      rcases detach_object_eq_ok walked with
        ⟨data, given, tagged, taken, rfl⟩ | ⟨keptFields, untagged, inner⟩
      · simp only [tagged, taken] at member
        obtain rfl := List.mem_singleton.1 member
        rw [Table.value?_put_self]
        rfl
      · rw [untagged] at member
        exact isSome_detachFields contents fields inner bytes member
  | null => cases member
  | boolean value => cases member
  | integer value => cases member
  | double value => cases member
  | text value => cases member

theorem isSome_detachItems (contents : ContentStore) (items : List Json) {kept : List Json}
    {after : ContentStore} (walked : detachItems contents items = (.ok kept, after)) :
    ∀ bytes ∈ blobContentsOfItems items,
      (Table.value? after (Digest.contentDigest bytes)).isSome := by
  intro bytes member
  cases items with
  | nil => cases member
  | cons item rest =>
      obtain ⟨first, others, between, walkedItem, walkedRest⟩ := detachItems_cons_eq_ok walked
      rcases List.mem_append.1 member with inFirst | inRest
      · have grown := gains_detachItems between rest
        rw [walkedRest] at grown
        exact grown.keeps _ (isSome_detach contents item walkedItem bytes inFirst)
      · exact isSome_detachItems between rest walkedRest bytes inRest

theorem isSome_detachFields (contents : ContentStore) (fields : List (String × Json))
    {kept : List (String × Json)} {after : ContentStore}
    (walked : detachFields contents fields = (.ok kept, after)) :
    ∀ bytes ∈ blobContentsOfFields fields,
      (Table.value? after (Digest.contentDigest bytes)).isSome := by
  intro bytes member
  cases fields with
  | nil => cases member
  | cons field rest =>
      obtain ⟨key, value⟩ := field
      obtain ⟨first, others, between, walkedValue, walkedRest⟩ := detachFields_cons_eq_ok walked
      rcases List.mem_append.1 member with inFirst | inRest
      · have grown := gains_detachFields between rest
        rw [walkedRest] at grown
        exact grown.keeps _ (isSome_detach contents value walkedValue bytes inFirst)
      · exact isSome_detachFields between rest walkedRest bytes inRest

end

theorem blobContents_subset {fields : List (String × Json)} {key : String} {value : Json}
    (member : (key, value) ∈ fields) : blobContents value ⊆ blobContentsOfFields fields := by
  induction fields with
  | nil => cases member
  | cons field rest inductionHypothesis =>
      rw [blobContentsOfFields]
      rcases List.mem_cons.1 member with rfl | later
      · exact List.subset_append_left _ _
      · exact List.subset_append_of_subset_right _ (inductionHypothesis later)

end ContentStore

/-- The contents that a bag brings when it is saved. -/
def Tree.contents [Machine] (data : Tree) : List Digest.Bytes :=
  ((data.throughText true).toOption.map ContentStore.blobContents).getD []

theorem Tree.contents_of_throughText [Machine] {data : Tree} {copied : Json}
    (copying : data.throughText true = .ok copied) :
    data.contents = ContentStore.blobContents copied := by
  rw [Tree.contents, copying]
  rfl

/-- A bag that is not taken for a blob itself brings what each of its values brings. -/
theorem Tree.contents_object [Machine] {fields : List (String × Tree)}
    (distinct : Table.Distinct fields) (untagged : ¬Tree.Tagged fields) {stored : Json}
    (form : (Tree.object fields).storedForm = .ok stored)
    {key : String} {value : Tree} (found : Table.value? fields key = some value) :
    value.contents ⊆ (Tree.object fields).contents := by
  obtain ⟨copied, copying, _⟩ := Tree.storedForm_eq_ok form
  obtain ⟨copies, rfl, fieldwise⟩ := Tree.throughText_object_eq_ok distinct copying
  obtain ⟨copy, foundCopy, copyingValue⟩ := fieldwise.value?_eq_some found
  rw [Tree.contents_of_throughText copying, Tree.contents_of_throughText copyingValue,
    ContentStore.blobContents]
  cases tagged : ContentStore.tagged? copies with
  | some data =>
      exact absurd ((Tree.exists_tagged?_throughText_iff fieldwise).1 ⟨data, tagged⟩) untagged
  | none => exact ContentStore.blobContents_subset (Table.mem_of_value? foundCopy)

/-- The contents that a request passes to the engine, whether it succeeds or not. -/
def Request.passed [Machine] : Request Tree → List Digest.Bytes
  | .save _ _ data _ _ => data.contents
  | _ => []

namespace Memory

section Saving

variable (memory : Memory) (collection : Address) (identifier : String) (data : Tree)
  (control : Option ConcurrencyControl) (sequence : Int)

theorem gains_save [Machine] :
    ContentStore.Gains memory.contents
      (memory.save collection identifier data control sequence).2.contents data.contents := by
  unfold save Tree.contents
  dsimp only
  split
  · exact .refl _ _
  · cases copying : data.throughText true with
    | error failure => exact .refl _ _
    | ok copied =>
        have gains := ContentStore.gains_detach memory.contents copied
        dsimp only
        cases walked : ContentStore.detach memory.contents copied with
        | mk result contents =>
            rw [walked] at gains
            cases result <;> exact gains

theorem isSome_save [Machine] {result : SaveResult}
    (saved : (memory.save collection identifier data control sequence).1 = .ok result) :
    ∀ bytes ∈ data.contents,
      (Table.value? (memory.save collection identifier data control sequence).2.contents
        (Digest.contentDigest bytes)).isSome := by
  intro bytes member
  unfold save at saved ⊢
  unfold Tree.contents at member
  dsimp only at saved ⊢
  split at saved
  · cases saved
  · next free =>
      rw [if_neg free]
      cases copying : data.throughText true with
      | error failure =>
          rw [copying] at member
          cases member
      | ok copied =>
          rw [copying] at saved member
          dsimp only at saved ⊢
          cases walked : ContentStore.detach memory.contents copied with
          | mk result contents =>
              rw [walked] at saved
              cases result with
              | error fault => cases saved
              | ok kept => exact ContentStore.isSome_detach _ _ walked bytes member

end Saving

/-- A request adds the contents it passes, and no others. -/
theorem gains_step [Machine] (memory : Memory) (request : Request Tree) :
    ContentStore.Gains memory.contents (memory.step request).2.contents request.passed := by
  cases request with
  | save collection identifier data control sequence =>
      exact memory.gains_save collection identifier data control sequence
  | getDocument collection identifier =>
      rw [step]
      cases memory.document? collection identifier <;> exact .refl _ _
  | deleteDocument collection identifier control sequence =>
      simp only [step, delete]
      cases memory.document? collection identifier with
      | none => exact .refl _ _
      | some existing =>
          dsimp only
          split <;> exact .refl _ _
  | purgeDocument collection identifier =>
      simp only [step, purge]
      cases memory.document? collection identifier <;> exact .refl _ _
  | createIndex collection name definition =>
      simp only [step, createIndex]
      cases definition.throughText false <;> exact .refl _ _
  | setExpiration collection identifier expiration =>
      simp only [step, setExpiration]
      cases memory.document? collection identifier with
      | none => exact .refl _ _
      | some existing => cases expiration <;> exact .refl _ _
  | getBlobContent collection identifier key => exact .refl _ _
  | deleteIndex collection name => exact .refl _ _
  | getIndexes collection => exact .refl _ _
  | getCount collection => exact .refl _ _
  | getExpiration collection identifier => exact .refl _ _
  | executeQuery database query parameters => exact .refl _ _
  | explainQuery database query parameters => exact .refl _ _

/-! ### What a run keeps -/

/-- Every content is one of those passed, under its own digest, and what the documents present
brought is there. -/
structure Stocked [Machine] (memory : Memory) (ledger : Ledger) (passed : List Digest.Bytes) :
    Prop where
  gains : ContentStore.Gains [] memory.contents passed
  stocked : ∀ {key : Address × String} {entry : Entry}, ledger key = some entry →
    ∀ bytes ∈ entry.data.contents,
      bytes ∈ passed ∧ (Table.value? memory.contents (Digest.contentDigest bytes)).isSome

/-- A bag that is known after a change was known before, or is the bag of the save that the
change is. -/
theorem known_before_or_saved {ledger : Ledger} {change : Option ((Address × String) × Change)}
    {key : Address × String} {entry : Entry} (known : ledger.record change key = some entry) :
    (∃ old, ledger key = some old ∧ entry.data = old.data)
      ∨ ∃ result, change = some (key, .saved entry.data result) := by
  cases change with
  | none => exact .inl ⟨entry, known, rfl⟩
  | some changed =>
      obtain ⟨other, change⟩ := changed
      rw [Ledger.record_apply] at known
      split at known
      · next same =>
          subst same
          cases change with
          | saved data result =>
              refine .inr ⟨result, ?_⟩
              cases before : ledger other with
              | none =>
                  rw [before] at known
                  cases known
                  rfl
              | some old =>
                  rw [before] at known
                  cases known
                  rfl
          | removed => cases known
          | expires expiration =>
              cases before : ledger other with
              | none =>
                  rw [before] at known
                  cases known
              | some old =>
                  rw [before] at known
                  cases known
                  exact .inl ⟨old, rfl, rfl⟩
      · exact .inl ⟨entry, known, rfl⟩

/-- Only a save that succeeded saves a document. -/
theorem request_of_saved {event : Event} {key : Address × String} {data : Tree}
    {result : SaveResult} (change : event.change? = some (key, .saved data result)) :
    ∃ control sequence, event.request = .save key.1 key.2 data control sequence
      ∧ event.outcome.result = .ok (.saved result) := by
  unfold Event.change? at change
  split at change
  · next collection identifier data control sequence result log =>
      cases change
      exact ⟨control, sequence, rfl, rfl⟩
  all_goals cases change

variable [Machine]

theorem Stocked.step {memory : Memory} {ledger : Ledger} {passed : List Digest.Bytes}
    (stocked : memory.Stocked ledger passed) (request : Request Tree) :
    (memory.step request).2.Stocked
      (ledger.record (Event.change? ⟨request, (memory.step request).1⟩))
      (passed ++ request.passed) := by
  have grown := memory.gains_step request
  refine ⟨stocked.gains.trans grown, ?_⟩
  intro key entry known bytes member
  rcases known_before_or_saved known with ⟨old, knownBefore, same⟩ | ⟨result, change⟩
  · rw [same] at member
    obtain ⟨given, present⟩ := stocked.stocked knownBefore bytes member
    exact ⟨List.mem_append_left _ given, grown.keeps _ present⟩
  · obtain ⟨control, sequence, asked, answered⟩ := request_of_saved change
    subst asked
    refine ⟨List.mem_append_right _ member, ?_⟩
    show (Table.value? (memory.save key.1 key.2 entry.data control sequence).2.contents _).isSome
    cases saving : (memory.save key.1 key.2 entry.data control sequence).1 with
    | ok saved => exact memory.isSome_save key.1 key.2 entry.data control sequence saving bytes member
    | error failure =>
        simp only [Memory.step, saving] at answered
        cases answered

theorem Stocked.extend {memory : Memory} {ledger : Ledger} {passed : List Digest.Bytes}
    (stocked : memory.Stocked ledger passed) (requests : List (Request Tree)) :
    (memory.afterRun requests).Stocked (ledger.extend (memory.history requests))
      (passed ++ requests.flatMap Request.passed) := by
  induction requests generalizing memory ledger passed with
  | nil =>
      rw [List.flatMap_nil, List.append_nil]
      exact stocked
  | cons request rest inductionHypothesis =>
      rw [List.flatMap_cons, ← List.append_assoc]
      exact inductionHypothesis (stocked.step request)

theorem stocked_empty : empty.Stocked .empty [] where
  gains := .refl _ _
  stocked := fun known => by cases known

theorem stocked_afterRun (requests : List (Request Tree)) :
    (empty.afterRun requests).Stocked (.ofHistory (empty.history requests))
      (requests.flatMap Request.passed) :=
  stocked_empty.extend requests

theorem gains_afterRun (memory : Memory) (requests : List (Request Tree)) :
    ContentStore.Gains memory.contents (memory.afterRun requests).contents
      (requests.flatMap Request.passed) := by
  induction requests generalizing memory with
  | nil => exact .refl _ _
  | cons request rest inductionHypothesis =>
      rw [List.flatMap_cons]
      exact (memory.gains_step request).trans (inductionHypothesis _)

/-- Among contents that share no hash, what a document brought is found under its digest from
then on, whatever becomes of the document. -/
theorem value?_contentDigest {earlier later : List (Request Tree)}
    (collisionFree : Digest.CollisionFree ((earlier ++ later).flatMap Request.passed))
    {key : Address × String} {entry : Entry}
    (known : Ledger.ofHistory (empty.history earlier) key = some entry) {bytes : Digest.Bytes}
    (member : bytes ∈ entry.data.contents) :
    Table.value? (empty.afterRun (earlier ++ later)).contents (Digest.contentDigest bytes) =
      some bytes := by
  obtain ⟨given, present⟩ := (stocked_afterRun earlier).stocked known bytes member
  have grown := (empty.afterRun earlier).gains_afterRun later
  rw [← afterRun_append] at grown
  obtain ⟨found, finding⟩ := Option.isSome_iff_exists.1 (grown.keeps _ present)
  rw [List.flatMap_append] at collisionFree
  have gains := (stocked_afterRun earlier).gains.trans grown
  rcases gains.origin _ found finding with none | ⟨foundGiven, named⟩
  · cases none
  · rw [finding, collisionFree found foundGiven bytes (List.mem_append_left _ given)
      (Digest.sha1_eq_of_contentDigest_eq named.symm)]

end Memory

end DocumentStore
