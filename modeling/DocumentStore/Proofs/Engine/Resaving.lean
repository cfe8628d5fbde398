import DocumentStore.Proofs.Engine.SavedTrees
import DocumentStore.Proofs.Engine.Versions
import DocumentStore.Proofs.Json.Trees

/-!
Contract: a stored document that is loaded and saved back stays what it was.

Owns: the bags whose blobs have a text for a content type, the invariant of what is stored of such
bags, and what loading a document and saving it back makes of the engine, any number of times.

Does not own: bags with a blob whose content type is a container. It may hold a blob of its own,
which only the next save finds.

What is stored of a bag is the bag carried through text with its outermost tagged objects
described. A description with a text for its content type is no tagged object, and no key gets
a tag or an object that it did not have, so nothing is left for another save to replace.
-/

set_option autoImplicit false

namespace DocumentStore

namespace Json

/-! ### Described trees -/

/-- The data of a blob whose content type is a text or is missing. -/
def Typed (data : List (String × Json)) : Prop :=
  ∀ contentType, Table.value? data "contentType" = some contentType →
    ∃ type, contentType = .text type

/-- The content type of a description that is made of typed data. -/
theorem Typed.contentType_cases {data : List (String × Json)} (typed : Typed data) :
    (Table.value? data "contentType").getD .null = .null
      ∨ ∃ type, (Table.value? data "contentType").getD .null = .text type := by
  cases found : Table.value? data "contentType" with
  | none => exact .inl rfl
  | some contentType => exact .inr (typed contentType found)

variable [Machine]

theorem value?_describedFields (fields : List (String × Json)) (key : String) :
    Table.value? (describedFields fields) key = (Table.value? fields key).map described := by
  induction fields with
  | nil => rfl
  | cons field rest inductionHypothesis =>
      obtain ⟨present, value⟩ := field
      rw [describedFields, Table.value?, Table.value?]
      split
      · rfl
      · exact inductionHypothesis

theorem eq_text_of_described {json : Json} {value : String} (same : json.described = .text value) :
    json = .text value := by
  cases json with
  | text other => exact same
  | object fields =>
      rw [described] at same
      split at same <;> cases same
  | _ => cases same

theorem eq_object_of_described {json : Json} {fields : List (String × Json)}
    (same : json.described = .object fields) : ∃ original, json = .object original := by
  cases json with
  | object original => exact ⟨original, rfl⟩
  | _ => cases same

/-- Describing the values of an object makes no tagged object of it. -/
theorem tagged?_describedFields {fields : List (String × Json)}
    (untagged : ContentStore.tagged? fields = none) :
    ContentStore.tagged? (describedFields fields) = none := by
  cases tagged : ContentStore.tagged? (describedFields fields) with
  | none => rfl
  | some data =>
      obtain ⟨foundTag, foundData⟩ := ContentStore.tagged?_eq_some_iff.1 tagged
      rw [value?_describedFields, Option.map_eq_some_iff] at foundTag foundData
      obtain ⟨tag, tagFound, tagDescribed⟩ := foundTag
      obtain ⟨held, heldFound, heldDescribed⟩ := foundData
      obtain rfl := eq_text_of_described tagDescribed
      obtain ⟨original, rfl⟩ := eq_object_of_described heldDescribed
      rw [ContentStore.tagged?_eq_some_iff.2 ⟨tagFound, heldFound⟩] at untagged
      cases untagged

mutual

/-- No object of a described tree is tagged, if its blobs were typed. -/
theorem untagged_described (json : Json) (typed : ∀ data ∈ json.blobData, Typed data) :
    json.described.Untagged := by
  cases json with
  | array items => exact untaggedItems_described items typed
  | object fields =>
      rw [blobData] at typed
      rw [described]
      cases tagged : ContentStore.tagged? fields with
      | some data =>
          rw [tagged] at typed
          have one := typed data (List.mem_singleton_self data)
          refine ⟨rfl, trivial, ?_, trivial, trivial, trivial⟩
          rcases one.contentType_cases with missing | ⟨type, given⟩
          · rw [missing]
            exact trivial
          · rw [given]
            exact trivial
      | none =>
          rw [tagged] at typed
          exact ⟨tagged?_describedFields tagged, untaggedFields_described fields typed⟩
  | _ => exact trivial

theorem untaggedItems_described (items : List Json)
    (typed : ∀ data ∈ blobDataOfItems items, Typed data) : UntaggedItems (describedItems items) := by
  cases items with
  | nil => exact trivial
  | cons item rest =>
      rw [blobDataOfItems, List.forall_mem_append] at typed
      exact ⟨untagged_described item typed.1, untaggedItems_described rest typed.2⟩

theorem untaggedFields_described (fields : List (String × Json))
    (typed : ∀ data ∈ blobDataOfFields fields, Typed data) :
    UntaggedFields (describedFields fields) := by
  cases fields with
  | nil => exact trivial
  | cons field rest =>
      obtain ⟨key, value⟩ := field
      rw [blobDataOfFields, List.forall_mem_append] at typed
      exact ⟨untagged_described value typed.1, untaggedFields_described rest typed.2⟩

end

/-- The data of a blob that takes no more bytes than any byte string may have. -/
def Sized (data : List (String × Json)) : Prop :=
  (blobBytes data).length < Tree.sizeLimit

/-- The length of a byte string has few digits. -/
theorem digitCount_of_sized {data : List (String × Json)} (sized : Sized data) :
    digitCount (blobBytes data).length ≤ digitLimit := by
  have bound : (blobBytes data).length < 10 ^ 19 := Nat.lt_trans sized (by decide)
  have short : (Nat.toDigits 10 (blobBytes data).length).length ≤ 19 :=
    (Nat.length_toDigits_le_iff (by decide) (by decide)).2 bound
  rw [digitCount, Int.natAbs_natCast, digitLimit]
  omega

mutual

/-- A described tree can be read if the tree can and its blobs are typed and of a size. -/
theorem readable_described (json : Json) (readable : json.Readable)
    (ordinary : ∀ data ∈ json.blobData, Typed data ∧ Sized data) : json.described.Readable := by
  cases json with
  | integer value => exact readable
  | array items => exact readableItems_described items readable ordinary
  | object fields =>
      rw [blobData] at ordinary
      rw [described]
      cases tagged : ContentStore.tagged? fields with
      | some data =>
          rw [tagged] at ordinary
          obtain ⟨typed, sized⟩ := ordinary data (List.mem_singleton_self data)
          have typeReadable : ((Table.value? data "contentType").getD .null).Readable := by
            rcases typed.contentType_cases with missing | ⟨type, given⟩
            · rw [missing]
              exact trivial
            · rw [given]
              exact trivial
          exact Tree.readable_description typeReadable trivial (digitCount_of_sized sized)
      | none =>
          rw [tagged] at ordinary
          exact readableFields_described fields readable ordinary
  | _ => exact trivial

theorem readableItems_described (items : List Json) (readable : ReadableItems items)
    (ordinary : ∀ data ∈ blobDataOfItems items, Typed data ∧ Sized data) :
    ReadableItems (describedItems items) := by
  cases items with
  | nil => exact trivial
  | cons item rest =>
      rw [blobDataOfItems, List.forall_mem_append] at ordinary
      exact ⟨readable_described item readable.1 ordinary.1,
        readableItems_described rest readable.2 ordinary.2⟩

theorem readableFields_described (fields : List (String × Json)) (readable : ReadableFields fields)
    (ordinary : ∀ data ∈ blobDataOfFields fields, Typed data ∧ Sized data) :
    ReadableFields (describedFields fields) := by
  cases fields with
  | nil => exact trivial
  | cons field rest =>
      obtain ⟨key, value⟩ := field
      rw [blobDataOfFields, List.forall_mem_append] at ordinary
      exact ⟨readable_described value readable.1 ordinary.1,
        readableFields_described rest readable.2 ordinary.2⟩

end

end Json

/-! ### Bags that settle -/

namespace Tree

/-- Every outermost blob of a bag, in the form in which the bag is written, satisfies this. -/
def EachBlob (bag : Tree) (holds : List (String × Json) → Prop) : Prop :=
  ∀ copied, bag.throughText true = .ok copied → ∀ data ∈ copied.blobData, holds data

end Tree

/-- A tree that a save stores as it is: it can be written, repeats no key and holds no blob. -/
structure Json.Settled (json : Json) : Prop where
  readable : json.Readable
  wellKeyed : json.WellKeyed
  untagged : json.Untagged

theorem Tree.settled_storedForm [Machine] {bag : Tree} {stored : Json}
    (form : bag.storedForm = .ok stored) (typed : bag.EachBlob Json.Typed)
    (sized : bag.EachBlob Json.Sized) : stored.Settled := by
  obtain ⟨copied, copying, detaching⟩ := Tree.storedForm_eq_ok form
  have convert := ContentStore.converts_of_detached copied detaching
  rw [ContentStore.detached_of_converts copied convert] at detaching
  obtain rfl := Except.ok.inj detaching
  obtain ⟨json, converted, rfl⟩ := Tree.throughText_eq_ok copying
  have readable := Json.readable_merged json (Tree.readable_toJson true bag converted)
  refine ⟨Json.readable_described _ readable fun data member => ?_, Tree.wellKeyed_storedForm form,
    Json.untagged_described _ (typed _ copying)⟩
  exact ⟨typed _ copying data member, sized _ copying data member⟩

/-! ### Saved bags -/

/-- The bag that an event saved, if it is a save that succeeded. -/
def Event.savedBag? (event : Event) : Option Tree :=
  match event.change? with
  | some (_, .saved bag _) => some bag
  | _ => none

theorem Event.request_of_savedBag? {event : Event} {bag : Tree} (saved : event.savedBag? = some bag) :
    ∃ collection identifier control sequence,
      event.request = .save collection identifier bag control sequence := by
  unfold savedBag? at saved
  split at saved
  · next key bag result changed =>
      cases saved
      obtain ⟨control, sequence, asked, _⟩ := Memory.request_of_saved changed
      exact ⟨key.1, key.2, control, sequence, asked⟩
  · cases saved

theorem Event.savedBag?_of_change {event : Event} {key : Address × String} {bag : Tree}
    {result : SaveResult} (changed : event.change? = some (key, .saved bag result)) :
    event.savedBag? = some bag := by
  rw [savedBag?, changed]

/-- What holds of every bag that is saved holds of every bag that is known. -/
theorem Ledger.extend_forall_data {holds : Tree → Prop} {ledger : Ledger} {events : List Event}
    (saved : ∀ event ∈ events, ∀ bag, event.savedBag? = some bag → holds bag)
    (before : ∀ key entry, ledger key = some entry → holds entry.data) :
    ∀ key entry, ledger.extend events key = some entry → holds entry.data := by
  induction events generalizing ledger with
  | nil => exact before
  | cons event rest inductionHypothesis =>
      apply inductionHypothesis fun later member => saved later (List.mem_cons_of_mem _ member)
      intro key entry known
      rcases Memory.known_before_or_saved known with ⟨old, knownBefore, same⟩ | ⟨result, changed⟩
      · rw [same]
        exact before key old knownBefore
      · exact saved event List.mem_cons_self _ (Event.savedBag?_of_change changed)

namespace ContentStore

variable [Machine]

mutual

/-- Detaching a tree without tagged objects gives this tree and puts nothing away. -/
theorem detach_of_untagged (contents : ContentStore) (json : Json) (untagged : json.Untagged) :
    detach contents json = (.ok json, contents) := by
  cases json with
  | array items => rw [detach, detachItems_of_untagged contents items untagged]
  | object fields =>
      rw [detach, untagged.1]
      simp only [detachFields_of_untagged contents fields untagged.2]
  | _ => rfl

theorem detachItems_of_untagged (contents : ContentStore) (items : List Json)
    (untagged : Json.UntaggedItems items) : detachItems contents items = (.ok items, contents) := by
  cases items with
  | nil => rfl
  | cons item rest =>
      rw [detachItems, detach_of_untagged contents item untagged.1]
      simp only [detachItems_of_untagged contents rest untagged.2]

theorem detachFields_of_untagged (contents : ContentStore) (fields : List (String × Json))
    (untagged : Json.UntaggedFields fields) :
    detachFields contents fields = (.ok fields, contents) := by
  cases fields with
  | nil => rfl
  | cons field rest =>
      obtain ⟨key, value⟩ := field
      rw [detachFields, detach_of_untagged contents value untagged.1]
      simp only [detachFields_of_untagged contents rest untagged.2]

end

end ContentStore

/-- A revision in parts: the generation, and the hash that stands after the hyphen. -/
def revisionWith (generation : Nat) (hash : List Char) : String :=
  String.ofList (Nat.toDigits 10 generation ++ '-' :: hash)

theorem revisionIdentifier_eq_revisionWith (generation : Nat) (data : Json) :
    revisionIdentifier generation data =
      revisionWith generation (Digest.hexadecimal (Digest.sha1 (canonicalBytes data))) := by
  have notNegative : ¬((generation : Int) < 0) := by omega
  simp only [revisionIdentifier, revisionWith, integerText, if_neg notNegative, Int.natAbs_natCast]

namespace Memory

section SavingBack

variable (memory : Memory) (collection : Address) (identifier : String)
  (control : Option ConcurrencyControl)

/-- A document is loaded, placed in a store, and saved from there under the identifier it was
loaded with. -/
def saveBack [Machine] (store : Store) (sequence : Int) : Outcome × Memory :=
  match DocumentEngine.perform store (.getDocument collection identifier) memory with
  | (⟨.ok (.record record), _⟩, loaded) =>
      let placed := store.place record.data
      DocumentEngine.perform placed.2
        (.save collection record.identifier placed.1 control sequence) loaded
  | unloaded => unloaded

end SavingBack

/-- A document is loaded and saved back several times in a row, each time through a store and with
a sequence of its own. -/
def saveBackAll [Machine] (memory : Memory) (collection : Address) (identifier : String)
    (control : Option ConcurrencyControl) : List (Store × Int) → List Outcome × Memory
  | [] => ([], memory)
  | (store, sequence) :: rest =>
      let (outcome, after) := memory.saveBack collection identifier control store sequence
      let (outcomes, final) := saveBackAll after collection identifier control rest
      (outcome :: outcomes, final)

section Rounds

variable {memory : Memory} {collection : Address} {identifier : String} {stored : StoredDocument}
  {control : Option ConcurrencyControl}

/-- A settled document that is loaded and saved back is the next version of itself. -/
theorem saveBack_of_settled [Machine] (found : memory.document? collection identifier = some stored)
    (named : stored.identifier = identifier) (settled : stored.data.Settled)
    (overwrites : control ≠ some .failOnConflict) (store : Store) (sequence : Int) :
    memory.saveBack collection identifier control store sequence =
      (.answer (.saved (resultOf (memory.nextVersion collection identifier stored.data))),
        { memory with
          documents := Table.put memory.documents (collection, identifier)
            (memory.nextVersion collection identifier stored.data)
          nextSequence := memory.nextSequence + 1 }) := by
  have free : memory.hasConflict collection identifier control sequence = false :=
    hasConflict_of_ne_failOnConflict overwrites
  have placed : (store.place stored.data.draft).2.unfold (store.place stored.data.draft).1 =
      stored.data.toTree := Store.unfold_place store settled.wellKeyed
  have copied : stored.data.toTree.throughText true = .ok stored.data :=
    Tree.throughText_of_readable true settled.readable settled.wellKeyed
  have walked := ContentStore.detach_of_untagged memory.contents stored.data settled.untagged
  unfold hasConflict at free
  have loaded : DocumentEngine.perform store (.getDocument collection identifier) memory =
      (.answer (.record (record stored)), memory) := by
    show memory.step (.getDocument collection identifier) = _
    rw [step, found]
  rw [saveBack, loaded]
  show memory.step (.save collection stored.identifier
    ((store.place stored.data.draft).2.unfold (store.place stored.data.draft).1) control sequence) = _
  rw [placed, named, step, save, if_neg (by simp [free]), copied]
  dsimp only
  rw [walked]
  rfl

/-- However often a settled document is loaded and saved back, each round makes the version of the
next generation of the same data, and nothing is put away. -/
theorem saveBackAll_of_settled [Machine]
    (found : memory.document? collection identifier = some stored)
    (named : stored.identifier = identifier) (settled : stored.data.Settled)
    (overwrites : control ≠ some .failOnConflict) (rounds : List (Store × Int)) :
    let resaved := memory.saveBackAll collection identifier control rounds
    resaved.1 = (List.range rounds.length).map (fun round =>
        .answer (.saved ⟨identifier,
          some (revisionIdentifier (stored.generation + round + 1 : Nat) stored.data),
          (memory.nextSequence + round : Nat)⟩))
      ∧ resaved.2.contents = memory.contents
      ∧ ∃ last, resaved.2.document? collection identifier = some last
        ∧ last.data = stored.data
        ∧ last.generation = stored.generation + rounds.length := by
  induction rounds generalizing memory stored with
  | nil => exact ⟨rfl, rfl, stored, found, rfl, rfl⟩
  | cons round rest inductionHypothesis =>
      obtain ⟨store, sequence⟩ := round
      have first := saveBack_of_settled found named settled overwrites store sequence
      have next : memory.nextVersion collection identifier stored.data =
          ⟨identifier, memory.nextSequence, stored.generation + 1,
            revisionIdentifier (stored.generation + 1 : Nat) stored.data, stored.data⟩ := by
        rw [nextVersion, found]
        rfl
      rw [next] at first
      have foundNext : document? { memory with
          documents := Table.put memory.documents (collection, identifier)
            ⟨identifier, memory.nextSequence, stored.generation + 1,
              revisionIdentifier (stored.generation + 1 : Nat) stored.data, stored.data⟩
          nextSequence := memory.nextSequence + 1 } collection identifier =
            some ⟨identifier, memory.nextSequence, stored.generation + 1,
              revisionIdentifier (stored.generation + 1 : Nat) stored.data, stored.data⟩ :=
        Table.value?_put_self _ _ _
      obtain ⟨outcomes, contents, last, foundLast, data, generation⟩ :=
        inductionHypothesis foundNext rfl settled
      dsimp only at outcomes contents foundLast generation ⊢
      rw [saveBackAll, first]
      dsimp only
      refine ⟨?_, contents, last, foundLast, data, ?_⟩
      · rw [outcomes, List.length_cons, List.range_succ_eq_map, List.map_cons, List.map_map]
        congr 1
        apply List.map_congr_left
        intro round _
        simp only [Function.comp_apply, Nat.add_right_comm, Nat.succ_eq_add_one, ← Nat.add_assoc]
      · rw [generation, List.length_cons]
        omega

end Rounds

/-! ### Runs -/

section Runs

variable [Machine] {requests : List (Request Tree)}
  (typed : ∀ event ∈ empty.history requests, ∀ bag, event.savedBag? = some bag →
    bag.EachBlob Json.Typed)
  (sized : ∀ event ∈ empty.history requests, ∀ bag, event.savedBag? = some bag →
    bag.EachBlob Json.Sized)
  {collection : Address} {identifier : String} {stored : StoredDocument}
  (found : (empty.afterRun requests).document? collection identifier = some stored)

include typed sized found

theorem settled_afterRun : stored.data.Settled := by
  have represents := represents_afterRun requests
  obtain ⟨entry, known⟩ : ∃ entry,
      Ledger.ofHistory (empty.history requests) (collection, identifier) = some entry := by
    apply Option.isSome_iff_exists.1
    rw [← represents.isSome_document?, found, Option.isSome_some]
  obtain ⟨version, foundVersion, isVersion⟩ := represents.exists_version known
  obtain rfl := Option.some.inj (found.symm.trans foundVersion)
  exact Tree.settled_storedForm isVersion.form
    (Ledger.extend_forall_data typed (fun key entry known => by cases known) _ _ known)
    (Ledger.extend_forall_data sized (fun key entry known => by cases known) _ _ known)

/-- After a run whose saved bags hold blobs with a text or nothing for a content type only, and
contents of no more bytes than a byte string may have: no object in a stored document is tagged.
A stored document that is loaded and saved back, in any store, with any sequence, and any number of
times in a row, is answered with a revision of the same hash and one generation more each time.
Its data is the same tree afterwards, and the content store the same table. -/
theorem saving_back_is_stable {control : Option ConcurrencyControl}
    (overwrites : control ≠ some .failOnConflict) (rounds : List (Store × Int)) :
    let memory := empty.afterRun requests
    let resaved := memory.saveBackAll collection identifier control rounds
    stored.data.Untagged
      ∧ ∃ hash, stored.revision = revisionWith stored.generation hash
        ∧ resaved.1 = (List.range rounds.length).map (fun round =>
          .answer (.saved ⟨identifier, some (revisionWith (stored.generation + round + 1) hash),
            (memory.nextSequence + round : Nat)⟩))
        ∧ resaved.2.contents = memory.contents
        ∧ ∃ last, resaved.2.document? collection identifier = some last
          ∧ last.data = stored.data
          ∧ last.generation = stored.generation + rounds.length := by
  have settled := settled_afterRun typed sized found
  have filed : Filed (collection, identifier) stored := allFiled_afterRun requests _ _ found
  obtain ⟨outcomes, contents, last⟩ :=
    saveBackAll_of_settled found filed.identifier_eq settled overwrites rounds
  refine ⟨settled.untagged, Digest.hexadecimal (Digest.sha1 (canonicalBytes stored.data)), ?_, ?_,
    contents, last⟩
  · rw [filed.revision_eq, revisionIdentifier_eq_revisionWith]
  · rw [outcomes]
    simp only [revisionIdentifier_eq_revisionWith]

end Runs

/-- The trip with its photo and its letter is loaded and saved back twice. -/
theorem trip_is_saved_back_twice :
    let requests := [Request.save notes "trip" (sharingStore.unfold (.cell 5)) none 0]
    (∀ event ∈ empty.history requests, ∀ bag, event.savedBag? = some bag →
        bag.EachBlob Json.Typed ∧ bag.EachBlob Json.Sized)
      ∧ ∃ stored hash, (empty.afterRun requests).document? notes "trip" = some stored
        ∧ stored.data = sharingTree.described
        ∧ stored.data.Untagged
        ∧ ((empty.afterRun requests).saveBackAll notes "trip" none
            [(Store.empty, 1), (sharingStore, 7)]).1 =
          [.answer (.saved ⟨"trip", some (revisionWith 2 hash), 2⟩),
            .answer (.saved ⟨"trip", some (revisionWith 3 hash), 3⟩)] := by
  intro requests
  have blobs : ∀ data ∈ sharingTree.blobData,
      Json.Converts data ∧ Json.Typed data ∧ Json.Sized data := by
    intro data member
    have outermost : data ∈ [[("contentType", Json.text "image/png"),
        ("data", .array (Tree.byteNumbers [104, 105]))], [("contentType", Json.text "text/plain"),
          ("data", .array [.integer 104, .boolean true])]] := member
    rcases List.mem_cons.1 outermost with rfl | last
    · have taken := Tree.content_taggedContent (.text "image/png") [104, 105]
      refine ⟨⟨_, taken⟩, fun contentType given => ⟨"image/png", (Option.some.inj given).symm⟩, ?_⟩
      rw [Json.Sized, ContentStore.blobBytes_eq taken]
      decide
    · obtain rfl := List.mem_singleton.1 last
      have taken : ContentStore.content [("contentType", Json.text "text/plain"),
          ("data", .array [.integer 104, .boolean true])] = .ok [104, 1] := rfl
      refine ⟨⟨_, taken⟩, fun contentType given => ⟨"text/plain", (Option.some.inj given).symm⟩, ?_⟩
      rw [Json.Sized, ContentStore.blobBytes_eq taken]
      decide
  have form := written_sharing.storedForm_of_converts fun data member => (blobs data member).1
  have free : empty.hasConflict notes "trip" none 0 = false := rfl
  have found : (empty.afterRun requests).document? notes "trip" =
      some (empty.nextVersion notes "trip" sharingTree.described) := by
    rw [afterRun_cons, afterRun_nil]
    exact document?_step_save free form
  obtain ⟨contents, saving⟩ := save_of_storedForm_ok free form
  have next : (empty.afterRun requests).nextSequence = 2 := by
    rw [afterRun_cons, afterRun_nil, step, saving]
    rfl
  have each : ∀ event ∈ empty.history requests, ∀ bag, event.savedBag? = some bag →
      bag.EachBlob Json.Typed ∧ bag.EachBlob Json.Sized := by
    intro event member bag saved
    rw [history_cons, history_nil, List.mem_singleton] at member
    obtain ⟨collection, identifier, control, sequence, asked⟩ := Event.request_of_savedBag? saved
    rw [member] at asked
    obtain ⟨_, _, rfl, _, _⟩ := Request.save.inj asked
    have copies : ∀ copied, (sharingStore.unfold (.cell 5)).throughText true = .ok copied →
        sharingTree = copied :=
      fun copied copying => Except.ok.inj (written_sharing.throughText.symm.trans copying)
    constructor
    · intro copied copying data member
      obtain rfl := copies copied copying
      exact (blobs data member).2.1
    · intro copied copying data member
      obtain rfl := copies copied copying
      exact (blobs data member).2.2
  have overwrites : none ≠ some ConcurrencyControl.failOnConflict := by decide
  have first : (empty.nextVersion notes "trip" sharingTree.described).generation = 1 := rfl
  obtain ⟨untagged, hash, _, outcomes, _⟩ := saving_back_is_stable
    (fun event member bag saved => (each event member bag saved).1)
    (fun event member bag saved => (each event member bag saved).2) found overwrites
    [(Store.empty, 1), (sharingStore, 7)]
  rw [next, first] at outcomes
  exact ⟨each, _, hash, found, rfl, untagged, outcomes⟩

end Memory

end DocumentStore
