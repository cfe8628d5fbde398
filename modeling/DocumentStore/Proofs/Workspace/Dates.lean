import DocumentStore.Proofs.Workspace.Conflicts
import DocumentStore.Proofs.Workspace.Getters
import DocumentStore.Proofs.Calendar.Accuracy

/-!
Contract: dates that go through the engine come back to the millisecond.

Owns: expirations from their setting on, dated properties from their setting through a save and a
loading, and what becomes of both in later states.

Does not own: the text of a date.

The engine keeps the timestamp as it is given. What comes back is what the reader makes of it:
the moment in UTC to the millisecond from the year 1000 on, nothing for an earlier one.
-/

set_option autoImplicit false

namespace DocumentStore

/-- Neither another expiration nor a removal of a document. -/
def Event.LeavesExpiration (key : Address × String) (event : Event) : Prop :=
  ∀ change, event.change? = some (key, change) → ∃ data result, change = .saved data result

/-! ### Timestamps as values -/

/-- A property set to a text is in the tree of the bag, whose keys are as distinct as before. -/
theorem Document.unfold_set_text (store : Store) (document : Document)
    (good : document.bag < store.size) (distinct : Table.Distinct (document.properties store))
    (key text : String) :
    ∃ fields, (document.set store key (.text text)).unfold (.cell document.bag) = .object fields
      ∧ Table.Distinct fields ∧ Table.value? fields key = some (.text text) := by
  obtain ⟨steps, fields, _, unfolded, fieldwise⟩ := store.unfold_setField good key (.text text)
  obtain ⟨tree, found, rfl⟩ := fieldwise.value?_eq_some
    (Table.value?_put_self _ key (Value.text text))
  refine ⟨fields, unfolded, fieldwise.distinct (distinct.put key _), ?_⟩
  rw [found]
  cases steps <;> rfl

/-- A bag that is no blob itself, with a text under a key. -/
def Tree.HoldsText (key text : String) (tree : Tree) : Prop :=
  ∃ fields, tree = .object fields ∧ Table.Distinct fields ∧ ¬Tree.Tagged fields
    ∧ Table.value? fields key = some (.text text)

/-- A text is stored as it is. -/
theorem Tree.HoldsText.of_storedForm [Machine] {key text : String} {tree : Tree} {stored : Json}
    (holds : tree.HoldsText key text) (form : tree.storedForm = .ok stored) :
    ∃ kept, stored = .object kept ∧ Table.Distinct kept
      ∧ Table.value? kept key = some (.text text) := by
  obtain ⟨fields, rfl, distinct, untagged, found⟩ := holds
  obtain ⟨kept, rfl, fieldwise⟩ := Tree.storedForm_object_eq_ok distinct untagged form
  obtain ⟨json, foundKept, formText⟩ := fieldwise.value?_eq_some found
  have plain : (Tree.text text).BlobFree := trivial
  have wellKeyed : (Tree.text text).WellKeyed := trivial
  have same := Tree.toTree_storedForm plain wellKeyed formText
  cases json with
  | text other =>
      cases same
      exact ⟨kept, rfl, fieldwise.distinct distinct, foundKept⟩
  | _ => cases same

namespace Action

variable {workspace : Workspace} {engine number : Nat} {address : Address}
  {requests : List (Request Tree)} {identifier : String}

/-! ### Expirations -/

section Expirations

variable [Machine] (keeps : workspace.Keeps engine requests)
  (linked : workspace.collection number = ⟨engine, address⟩)

include keeps linked

/-- The expiration of a document that is there is set to the timestamp of a moment. -/
theorem run_setExpiration {moment : Calendar.Moment} {text : String}
    (written : Calendar.Timestamp.write? moment = some text) {entry : Entry}
    (known : Ledger.ofHistory (Memory.empty.history requests) (address, identifier) = some entry) :
    ∃ after, (setExpiration number identifier (some moment)).run.run workspace = (.ok (), after)
      ∧ after.Keeps engine (requests ++ [.setExpiration address identifier (some text)])
      ∧ Ledger.ofHistory (Memory.empty.history
          (requests ++ [.setExpiration address identifier (some text)])) (address, identifier) =
        some { entry with expiration := some text } := by
  obtain ⟨stored, found, _⟩ := (Memory.represents_afterRun requests).exists_version known
  obtain ⟨log, requesting⟩ := run_requestOf keeps linked fun address =>
    .setExpiration address identifier (some text)
  have kept := keeps.answered (.setExpiration address identifier (some text)) log
  have recorded := Memory.ofHistory_append_singleton requests
    (.setExpiration address identifier (some text))
  simp only [Request.map, Memory.step, Memory.setExpiration, found] at requesting kept recorded
  refine ⟨_, ?_, kept, ?_⟩
  · have consulted : (consult fun _ => .ok (some text) : Action (Option String)).run.run workspace =
        (.ok (some text), workspace) := run_consult rfl
    rw [setExpiration, written, run_bind]
    dsimp only
    rw [consulted]
    dsimp only
    rw [run_bind, requesting]
    rfl
  · rw [recorded]
    change Ledger.record _ (some ((address, identifier), .expires (some text))) _ = _
    rw [Ledger.record_apply, if_pos rfl, known]
    rfl

/-- The expiration that is read is that of the timestamp that was set. -/
theorem run_expiration {moment : Option Calendar.Moment} {text : String}
    (named : (Value.text text).asMoment = .ok moment) {entry : Entry}
    (known : Ledger.ofHistory (Memory.empty.history requests) (address, identifier) = some entry)
    (expires : entry.expiration = some text) :
    ∃ after, (expiration number identifier).run.run workspace = (.ok moment, after) := by
  have agreement := (Memory.represents_afterRun requests).agrees (address, identifier)
  obtain ⟨log, requesting⟩ := run_requestOf keeps linked fun address =>
    .getExpiration address identifier
  simp only [Request.map, Memory.step, agreement.expiration_eq, known, Option.bind_some, expires]
    at requesting
  refine ⟨workspace.answered engine (Memory.empty.afterRun requests) log, ?_⟩
  rw [expiration, run_bind, requesting]
  exact run_consult named

end Expirations

/-! ### Properties -/

/-- A property is set to the timestamp of a moment, and nothing else changes. -/
theorem run_setMoment {document : Nat} {key text : String} {moment : Calendar.Moment}
    (written : Calendar.Timestamp.write? moment = some text) :
    ∃ dated, (setMoment document key (some moment)).run.run workspace = (.ok (), dated)
      ∧ dated.store = (workspace.document document).set workspace.store key (.text text)
      ∧ dated.documents = workspace.documents ∧ dated.engines = workspace.engines
      ∧ dated.collections = workspace.collections := by
  have consulted : (consultDocument document fun store source =>
      source.setMoment store key (some moment)).run.run workspace =
        (.ok ((workspace.document document).set workspace.store key (.text text)), workspace) := by
    rw [consultDocument, run_bind, run_get]
    simp only [Document.setMoment, written]
    rfl
  rw [setMoment, run_bind, consulted]
  exact ⟨_, rfl, rfl, rfl, rfl, rfl⟩

/-- The bag of a stored version is placed as it is. -/
theorem run_placeBag_object (workspace : Workspace) (fields : List (String × Json)) :
    ∃ after, (placeBag (Json.object fields).draft).run.run workspace =
        (.ok (workspace.store.place (Json.object fields).draft).1, after)
      ∧ after.store = (workspace.store.place (Json.object fields).draft).2
      ∧ after.documents = workspace.documents :=
  ⟨_, rfl, rfl, rfl⟩

/-- A new document has the bag that it is given, under whatever name. -/
theorem run_newDocument_of_bag (workspace : Workspace) (editable : Bool) (name : Option String)
    (sequence : Int) (revision : Option String) (bag : Ref) (collection : Option Nat) :
    ∃ given after, (newDocument editable name (some sequence) revision (some bag)
        collection).run.run workspace = (.ok workspace.documents.size, after)
      ∧ after.store = workspace.store
      ∧ after.documents = workspace.documents.push
        ⟨editable, given, sequence, revision, bag, collection⟩ :=
  ⟨_, _, rfl, rfl, rfl⟩

section Saves

variable [Machine] (keeps : workspace.Keeps engine requests)
  (linked : workspace.collection number = ⟨engine, address⟩)

include keeps linked

/-- After a save that succeeds, what is known of the document is the bag that was saved. -/
theorem known_of_save {document : Nat} {control : Option ConcurrencyControl} {after : Workspace}
    (saved : (save number document control).run.run workspace = (.ok (), after)) :
    after.Keeps engine (requests ++ [workspace.saveRequest address document control])
      ∧ ∃ entry, Ledger.ofHistory (Memory.empty.history
          (requests ++ [workspace.saveRequest address document control]))
          (address, (workspace.document document).identifier) = some entry
        ∧ entry.data = workspace.store.unfold (.cell (workspace.document document).bag) := by
  obtain ⟨reply, accepted⟩ := accepted_of_run_save keeps linked saved
  obtain ⟨form, storable⟩ := Memory.exists_storedForm_of_accepted accepted
  have free := Memory.hasConflict_of_accepted accepted
  obtain ⟨contents, answering⟩ := Memory.save_of_storedForm_ok free storable
  obtain ⟨entry, known, data, _⟩ := Memory.exists_entry_of_save requests storable free
  obtain ⟨log, saving⟩ := run_save keeps linked document control
  have kept := keeps.answered (workspace.saveRequest address document control) log
  simp only [Workspace.saveRequest, Memory.step, answering] at saving kept
  rw [saved] at saving
  cases saving
  exact ⟨kept, entry, known, data⟩

/-- A document whose bag was saved with a text under a key is loaded with this text there. -/
theorem run_load_text {key text : String} {entry : Entry}
    (known : Ledger.ofHistory (Memory.empty.history requests) (address, identifier) = some entry)
    (holds : entry.data.HoldsText key text) :
    ∃ loaded after, (load number identifier).run.run workspace = (.ok (some loaded), after)
      ∧ (after.document loaded).property after.store key = .text text := by
  obtain ⟨stored, found, version⟩ := (Memory.represents_afterRun requests).exists_version known
  obtain ⟨fields, data, distinct, foundText⟩ := holds.of_storedForm version.form
  obtain ⟨log, requesting⟩ := run_requestOf keeps linked fun address => .getDocument address identifier
  simp only [Request.map, Memory.step, found] at requesting
  obtain ⟨placed, placing, store, documents⟩ := run_placeBag_object
    (workspace.answered engine (Memory.empty.afterRun requests) log) fields
  obtain ⟨bag, before, bagPlaced, property, _⟩ := Store.value?_place_object
    (workspace.answered engine (Memory.empty.afterRun requests) log).store distinct foundText
  rw [← store] at property
  obtain ⟨given, after, making, sameStore, pushed⟩ := run_newDocument_of_bag placed false
    (some stored.identifier) stored.sequence (some stored.revision) bag (some number)
  refine ⟨placed.documents.size, after, ?_, ?_⟩
  · rw [load, run_bind, requesting]
    dsimp only [Outcome.answer, Memory.record]
    rw [data, run_bind, placing, bagPlaced]
    dsimp only
    rw [run_bind, making]
    rfl
  · rw [Workspace.document_push pushed, Document.property, Document.properties, sameStore, property]
    rfl

end Saves

/-- In every state after some requests, until the expiration of a document is set again or the
document is removed, the expiration that is read is this one. -/
def ShowsExpiration [Machine] (engine : Nat) (address : Address) (requests : List (Request Tree))
    (identifier : String) (moment : Option Calendar.Moment) : Prop :=
  ∀ more later reader, later.Keeps engine (requests ++ more) →
    later.collection reader = ⟨engine, address⟩ →
      (∀ event ∈ (Memory.empty.afterRun requests).history more,
        event.LeavesExpiration (address, identifier)) →
        ∃ after, (expiration reader identifier).run.run later = (.ok moment, after)

/-- In every state after some requests, until a document is saved again or removed, it is loaded
with this date for a property. -/
def ShowsDate [Machine] (engine : Nat) (address : Address) (requests : List (Request Tree))
    (identifier key : String) (moment : Option Calendar.Moment) : Prop :=
  ∀ more later reader, later.Keeps engine (requests ++ more) →
    later.collection reader = ⟨engine, address⟩ →
      (∀ event ∈ (Memory.empty.afterRun requests).history more,
        event.LeavesVersion (address, identifier)) →
        ∃ loaded after, (load reader identifier).run.run later = (.ok (some loaded), after)
          ∧ ((callDocument loaded "get_date" [.value (.text key)]).run.run after).1 =
            .ok (some (.value ((moment.map Value.moment).getD .null)))

section Readings

variable [Machine] {text : String} {moment : Option Calendar.Moment}
  (named : (Value.text text).asMoment = .ok moment) {entry : Entry}
  (known : Ledger.ofHistory (Memory.empty.history requests) (address, identifier) = some entry)

include named known

theorem showsExpiration_of_known (expires : entry.expiration = some text) :
    ShowsExpiration engine address requests identifier moment := by
  intro more later reader keeps linked leaves
  have preserved : ∀ event ∈ (Memory.empty.afterRun requests).history more, ∀ change,
      event.change? = some ((address, identifier), change) →
        change.Preserves fun entry => entry.expiration = some text := by
    intro event member change changed
    obtain ⟨data, result, rfl⟩ := leaves event member change changed
    exact Change.preserves_of_saved data result (some text)
  obtain ⟨still, knownLater, kept⟩ := Memory.known_after_more preserved known expires
  exact run_expiration keeps linked named knownLater kept

theorem showsDate_of_known {key : String} (holds : entry.data.HoldsText key text) :
    ShowsDate engine address requests identifier key moment := by
  intro more later reader keeps linked leaves
  obtain ⟨still, knownLater, sameData, _⟩ := Memory.same_version_known leaves known
  rw [← sameData] at holds
  obtain ⟨loaded, after, loading, property⟩ := run_load_text keeps linked knownLater holds
  refine ⟨loaded, after, loading, ?_⟩
  rw [run_getDate, property, named]
  rfl

end Readings

/-- Dates go through the engine to the millisecond. A moment whose form in UTC lies in the calendar
and has a year of four digits comes back in UTC, without what is finer than a millisecond; a moment
of an earlier year does not come back at all. An expiration that was set is read so in every later
state, and so is a property that was set to the moment before a save, unless the bag that was saved
is taken for a blob. -/
theorem dates_are_kept [Machine] {moment inUtc : Calendar.Moment}
    (marks : inUtc.Marks moment.instant) {workspace : Workspace} {engine number : Nat}
    {address : Address}
    {requests : List (Request Tree)} (keeps : workspace.Keeps engine requests)
    (linked : workspace.collection number = ⟨engine, address⟩) :
    let kept := if 1000 ≤ inUtc.date.year then some inUtc.toMillisecond else none
    inUtc.toMillisecond.Marks (moment.instant / 1000 * 1000)
      ∧ (∀ identifier entry,
        Ledger.ofHistory (Memory.empty.history requests) (address, identifier) = some entry →
          ∃ text after,
            (setExpiration number identifier (some moment)).run.run workspace = (.ok (), after)
              ∧ after.Keeps engine (requests ++ [.setExpiration address identifier (some text)])
              ∧ ShowsExpiration engine address
                (requests ++ [.setExpiration address identifier (some text)]) identifier kept)
      ∧ ∀ document key, (workspace.document document).bag < workspace.store.size →
        Table.Distinct ((workspace.document document).properties workspace.store) →
          ∃ dated, (setMoment document key (some moment)).run.run workspace = (.ok (), dated)
            ∧ ∀ control saved, (save number document control).run.run dated = (.ok (), saved) →
              (∀ fields, dated.store.unfold (.cell (dated.document document).bag) = .object fields →
                ¬Tree.Tagged fields) →
                saved.Keeps engine (requests ++ [dated.saveRequest address document control])
                  ∧ ShowsDate engine address (requests ++ [dated.saveRequest address document control])
                    (dated.document document).identifier key kept := by
  intro kept
  have written := Calendar.Timestamp.write?_of_marks marks
  have named := Value.asMoment_of_written marks written
  refine ⟨marks.toMillisecond, ?_, ?_⟩
  · intro identifier entry known
    obtain ⟨after, setting, keepsAfter, knownAfter⟩ := run_setExpiration keeps linked written known
    exact ⟨_, after, setting, keepsAfter, showsExpiration_of_known named knownAfter rfl⟩
  · intro document key good distinct
    obtain ⟨dated, dating, store, documents, engines, collections⟩ :=
      @run_setMoment workspace document key _ _ written
    have source := Workspace.document_of_documents_eq documents document
    have keepsDated : dated.Keeps engine requests := by
      rw [Workspace.Keeps, engines]
      exact keeps
    have linkedDated : dated.collection number = ⟨engine, address⟩ := by
      rw [Workspace.collection, collections]
      exact linked
    refine ⟨dated, dating, fun control saved saving untagged => ?_⟩
    obtain ⟨fields, unfolded, distinctFields, found⟩ :=
      (workspace.document document).unfold_set_text workspace.store good distinct key _
    rw [← store, ← source] at unfolded
    obtain ⟨keepsSaved, entry, known, data⟩ := known_of_save keepsDated linkedDated saving
    have holds : entry.data.HoldsText key _ :=
      ⟨fields, data.trans unfolded, distinctFields, untagged fields unfolded, found⟩
    exact ⟨keepsSaved, showsDate_of_known named known holds⟩

/-- A morning at an hour ahead of UTC. -/
def morning : Calendar.Moment :=
  ⟨⟨2024, 1, 31, by decide⟩, ⟨8, 15, 0, 250999, by decide⟩, some ⟨3600000000, by decide⟩⟩

/-- The same morning in UTC. -/
def morningInUtc : Calendar.Moment :=
  ⟨⟨2024, 1, 31, by decide⟩, ⟨7, 15, 0, 250999, by decide⟩, some .zero⟩

/-- A collection with one document, and a document of a program that has its name. -/
def diary : Workspace :=
  { Workspace.start [] with
    store := ⟨#[.object []]⟩
    engines := #[.memory (Memory.empty.afterRun [.save Memory.notes "trip" (.object []) none 0])]
    collections := #[⟨0, Memory.notes⟩]
    documents := #[⟨true, "trip", 0, none, 0, none⟩] }

theorem morning_is_kept :
    morningInUtc.Marks morning.instant
      ∧ diary.Keeps 0 [.save Memory.notes "trip" (.object []) none 0]
      ∧ diary.collection 0 = ⟨0, Memory.notes⟩
      ∧ (∃ text after, (setExpiration 0 "trip" (some morning)).run.run diary = (.ok (), after)
        ∧ ShowsExpiration 0 Memory.notes
          ([.save Memory.notes "trip" (.object []) none 0] ++
            [.setExpiration Memory.notes "trip" (some text)]) "trip"
          (some morningInUtc.toMillisecond))
      ∧ ∃ dated saved, (setMoment 0 "day" (some morning)).run.run diary = (.ok (), dated)
        ∧ (save 0 0 none).run.run dated = (.ok (), saved)
        ∧ ShowsDate 0 Memory.notes ([.save Memory.notes "trip" (.object []) none 0] ++
            [dated.saveRequest Memory.notes 0 none]) "trip" "day"
          (some morningInUtc.toMillisecond) := by
  have marks : morningInUtc.Marks morning.instant := ⟨rfl, by decide +kernel⟩
  have keeps : diary.Keeps 0 [.save Memory.notes "trip" (.object []) none 0] := rfl
  have linked : diary.collection 0 = ⟨0, Memory.notes⟩ := rfl
  obtain ⟨entry, known, _⟩ := Memory.exists_entry_of_save [] Tree.storedForm_object_nil rfl
  obtain ⟨_, expirations, properties⟩ := dates_are_kept marks keeps linked
  refine ⟨marks, keeps, linked, ?_, ?_⟩
  · obtain ⟨text, after, setting, _, shown⟩ := expirations "trip" entry known
    exact ⟨text, after, setting, shown⟩
  · obtain ⟨dated, dating, saves⟩ := properties 0 "day" Nat.one_pos List.nodup_nil
    have written : Calendar.Timestamp.write? morning = some "2024-01-31T07:15:00.250Z" := by
      decide +kernel
    obtain ⟨same, setting, store, documents, engines, collections⟩ :=
      @run_setMoment diary 0 "day" _ _ written
    rw [dating] at setting
    cases setting
    have source := Workspace.document_of_documents_eq documents 0
    have unfolded : dated.store.unfold (.cell (dated.document 0).bag) =
        .object [("day", .text "2024-01-31T07:15:00.250Z")] := by
      rw [store, source]
      rfl
    have dayForm : (Tree.object [("day", .text "2024-01-31T07:15:00.250Z")]).storedForm =
        .ok (.object [("day", .text "2024-01-31T07:15:00.250Z")]) := by
      rw [Tree.storedForm, Tree.throughText_eq]
      rfl
    have keepsDated : dated.Keeps 0 [.save Memory.notes "trip" (.object []) none 0] := by
      rw [Workspace.Keeps, engines]
      exact keeps
    have linkedDated : dated.collection 0 = ⟨0, Memory.notes⟩ := by
      rw [Workspace.collection, collections]
      rfl
    have present : 0 < dated.documents.size := by
      rw [documents]
      exact Nat.one_pos
    obtain ⟨saved, _, saving, _⟩ := @run_save_of_free _ _ _ _ _ _ keepsDated linkedDated 0 none _ present
      ((congrArg Tree.storedForm unfolded).trans dayForm)
      (Memory.hasConflict_of_ne_failOnConflict (by decide))
    obtain ⟨_, shown⟩ := saves none saved saving fun fields same => by
      rw [unfolded] at same
      cases same
      exact fun tagged => by cases tagged.1
    rw [source] at shown
    exact ⟨dated, saved, dating, saving, shown⟩

/-- The last second before the year 1000. -/
def lastSecond : Calendar.Moment :=
  ⟨⟨999, 12, 31, by decide⟩, ⟨23, 59, 59, 0, by decide⟩, some .zero⟩

/-- A new document whose expiration is set and read. -/
def expireAndRead [Machine] (moment : Calendar.Moment) : Action (Option Calendar.Moment) := do
  let number ← newCollection (← newEngine (.memory .empty)) (some "notes") none none
  let bag ← place (.object [])
  let _ ← requestOf number fun address => .save address "trip" bag none 0
  setExpiration number "trip" (some moment)
  expiration number "trip"

/-- A moment before the year 1000 is in the calendar, and yet it is not kept. -/
theorem early_moment_is_not_kept : Calendar.InCalendar lastSecond.instant
    ∧ ((expireAndRead lastSecond).run.run (.start [])).1 = .ok none :=
  ⟨by decide +kernel, by decide +kernel⟩

end Action

end DocumentStore
