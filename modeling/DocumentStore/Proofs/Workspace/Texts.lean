import DocumentStore.Proofs.Json.Ascii
import DocumentStore.Proofs.Json.Grammar
import DocumentStore.Proofs.Engine.SavedTrees
import DocumentStore.Proofs.Workspace.Dates

/-!
Contract: the text of a document gives the document's bag back.

Owns: which documents have a text, which bag a text is read into, and both round trips: from a bag
to its text and back, and from a text to a bag, to the text of this bag and back.

Does not own: the refusal of texts and of bags.

The tree of a bag has blobs in the form in which a bag holds them. The tree that is read repeats no
key and has no integer of too many digits, which is all that it takes to be written again.
-/

set_option autoImplicit false

namespace DocumentStore

/-! ### Bags and texts -/

namespace Document

/-- The bag of a text is an object, and it is what the text reads as. -/
theorem readBag_eq_ok {text : String} {bag : Json} (accepted : readBag text = .ok bag) :
    ∃ fields, bag = .object fields ∧ Json.read text = .ok (.object fields) := by
  unfold readBag at accepted
  split at accepted
  · cases accepted
  · next fields read =>
      cases accepted
      exact ⟨fields, rfl, read⟩
  · cases accepted

theorem readBag_of_read {text : String} {fields : List (String × Json)}
    (read : Json.read text = .ok (.object fields)) : readBag text = .ok (.object fields) := by
  rw [readBag, read]

/-- A bag whose value has a readable tree for its JSON tree is written as the text of this tree. -/
theorem writeJson_of_toJson {store : Store} {document : Document} {json : Json}
    (converted : (store.unfold (.cell document.bag)).toJson true = .ok json) :
    document.writeJson store = .ok json.write := by
  rw [writeJson, Tree.writeJson, converted]
  rfl

end Document

namespace Action

/-- A text is read into a new document that has this tree for its bag, whatever else there is. -/
def ReadsAs (identifier : Option String) (text : String) (bag : Json) : Prop :=
  ∀ workspace : Workspace, ∃ number after,
    (readDocument identifier text).run.run workspace = (.ok number, after)
      ∧ (after.document number).editable = true
      ∧ after.store.unfold (.cell (after.document number).bag) = bag.toTree

theorem readsAs_of_readBag {text : String} {bag : Json} (accepted : Document.readBag text = .ok bag)
    (wellKeyed : bag.WellKeyed) (identifier : Option String) : ReadsAs identifier text bag := by
  intro workspace
  obtain ⟨fields, rfl, _⟩ := Document.readBag_eq_ok accepted
  have unfolded := Store.unfold_place workspace.store wellKeyed
  have consulted : (consult fun _ => Document.readBag text).run.run workspace =
      (.ok (.object fields), workspace) := run_consult accepted
  obtain ⟨ref, placed⟩ : ∃ ref, (workspace.store.place (Json.object fields).draft).1 = .cell ref :=
    ⟨_, rfl⟩
  have placing : (place (Json.object fields).draft).run.run workspace =
      (.ok (.cell ref),
        { workspace with store := (workspace.store.place (Json.object fields).draft).2 }) := by
    rw [← placed]
    rfl
  obtain ⟨given, after, making, store, pushed⟩ := run_newDocument_of_bag
    { workspace with store := (workspace.store.place (Json.object fields).draft).2 }
    true identifier 0 none ref none
  refine ⟨workspace.documents.size, after, ?_, ?_, ?_⟩
  · rw [readDocument, run_bind, consulted]
    dsimp only
    rw [run_bind, placing]
    exact making
  · rw [Workspace.document_push pushed]
  · rw [Workspace.document_push pushed, store, ← placed]
    exact unfolded

/-- What a document that was read has for its bag: the tree its text reads as. -/
theorem readBag_of_run {identifier : Option String} {text : String} {workspace after : Workspace}
    {number : Nat} (read : (readDocument identifier text).run.run workspace = (.ok number, after)) :
    ∃ bag, Document.readBag text = .ok bag := by
  cases accepted : Document.readBag text with
  | ok bag => exact ⟨bag, rfl⟩
  | error failure =>
      rw [readDocument, run_bind, consult, run_bind, run_get] at read
      dsimp only at read
      rw [accepted] at read
      cases read

/-- A tree that can be read and repeats no key is read back from its text. -/
theorem readsAs_write {fields : List (String × Json)} (readable : (Json.object fields).Readable)
    (wellKeyed : (Json.object fields).WellKeyed) (identifier : Option String) :
    ReadsAs identifier (Json.object fields).write (.object fields) := by
  apply readsAs_of_readBag _ wellKeyed
  apply Document.readBag_of_read
  rw [Json.read_write readable, Json.merged_of_wellKeyed _ wellKeyed]

/-- A document whose bag is written as a tree has a text. The text is plain ASCII, and it is read
into a document whose bag is this tree. A text that is read into a document spells a tree, and the
bag of the document is this tree with repeated keys merged; the document has a text in its turn,
and this text is read into a document with the same bag. -/
theorem texts_of_documents_round_trip :
    (∀ (store : Store) (document : Document) (fields : List (String × Json)),
      store.Written (.cell document.bag) (.object fields) →
        ∃ text, document.writeJson store = .ok text
          ∧ Json.Ascii text.toList
          ∧ ∀ identifier, ReadsAs identifier text (.object fields))
    ∧ ∀ (identifier : Option String) (text : String) (workspace : Workspace) (number : Nat)
        (after : Workspace),
      (readDocument identifier text).run.run workspace = (.ok number, after) →
        ∃ raw fields, Json.SpelledBy raw text
          ∧ raw.Merges (.object fields)
          ∧ after.store.unfold (.cell (after.document number).bag) = (Json.object fields).toTree
          ∧ ∃ again, (after.document number).writeJson after.store = .ok again
            ∧ ∀ other, ReadsAs other again (.object fields) := by
  constructor
  · intro store document fields written
    have converted := written.toJson_unfoldWithin (.start _) (Nat.le_add_right _ _)
    refine ⟨(Json.object fields).write, Document.writeJson_of_toJson converted, ?_, ?_⟩
    · rw [Json.write, String.toList_ofList]
      exact Json.ascii_render _
    · exact readsAs_write (Tree.readable_toJson true _ converted) written.wellKeyed
  · intro identifier text workspace number after read
    obtain ⟨bag, accepted⟩ := readBag_of_run read
    obtain ⟨fields, rfl, readJson⟩ := Document.readBag_eq_ok accepted
    obtain ⟨raw, spelled, merged, readable⟩ := Json.exists_spelled_of_read readJson
    have wellKeyed : (Json.object fields).WellKeyed := merged ▸ raw.wellKeyed_merged
    have unfolded : after.store.unfold (.cell (after.document number).bag) =
        (Json.object fields).toTree := by
      obtain ⟨number', after', again, _, unfolded⟩ :=
        readsAs_of_readBag accepted wellKeyed identifier workspace
      rw [read] at again
      cases again
      exact unfolded
    refine ⟨raw, fields, spelled, merged ▸ raw.merges_merged, unfolded, (Json.object fields).write,
      ?_, readsAs_write readable wellKeyed⟩
    apply Document.writeJson_of_toJson
    rw [unfolded]
    exact Tree.toJson_of_readable true _ readable

/-- The characters of a text that gives the key `a` twice. -/
def repeatingCharacters : List Char :=
  ['\x7b', '"', 'a', '"', ':', '1', ',', '"', 'b', '"', ':', '[', ']', ',', ' ', '"', 'a', '"', ':',
    'n', 'u', 'l', 'l', '\x7d']

theorem trip_and_repeating_text_round_trip :
    (Memory.sharingStore.Written (.cell 5) Memory.sharingTree
        ∧ ∃ text, (Document.mk true "trip" 0 none 5 none).writeJson Memory.sharingStore = .ok text
          ∧ Json.Ascii text.toList ∧ ReadsAs none text Memory.sharingTree)
      ∧ ∃ number after,
        (readDocument none (String.ofList repeatingCharacters)).run.run (.start []) =
            (.ok number, after)
          ∧ after.store.unfold (.cell (after.document number).bag) =
            (Json.object [("a", .null), ("b", .array [])]).toTree
          ∧ ∃ again bag, (after.document number).writeJson after.store = .ok again
            ∧ ReadsAs (some "copy") again bag := by
  constructor
  · refine ⟨Memory.written_sharing, ?_⟩
    obtain ⟨fields, same⟩ : ∃ fields, Memory.sharingTree = .object fields := ⟨_, rfl⟩
    have given := Memory.written_sharing
    rw [same] at given ⊢
    obtain ⟨text, written, ascii, reads⟩ := texts_of_documents_round_trip.1 Memory.sharingStore
      ⟨true, "trip", 0, none, 5, none⟩ fields given
    exact ⟨text, written, ascii, reads none⟩
  · have accepted : Document.readBag (String.ofList repeatingCharacters) =
        .ok (.object [("a", .null), ("b", .array [])]) := by
      have whole : Json.readWhole repeatingCharacters =
          .ok (.object [("a", .null), ("b", .array [])]) := rfl
      apply Document.readBag_of_read
      rw [Json.read, String.toList_ofList, whole]
    have wellKeyed : (Json.object [("a", .null), ("b", .array [])]).WellKeyed :=
      ⟨by simp [Table.Distinct], trivial, trivial, trivial⟩
    obtain ⟨number, after, read, _, unfolded⟩ :=
      readsAs_of_readBag accepted wellKeyed none (.start [])
    obtain ⟨_, fields, _, _, _, again, written, reads⟩ :=
      texts_of_documents_round_trip.2 none _ (.start []) number after read
    exact ⟨number, after, read, unfolded, again, .object fields, written, reads _⟩

end Action

end DocumentStore
