import DocumentStore.Proofs.Engine.Contents
import DocumentStore.Proofs.Engine.Sequences

/-!
Contract: how fetching the content of a blob ends.

Owns: the digest that a saved bag names under a key, and the three ways in which fetching the
content with this digest ends after any run.

Does not own: which contents a run puts away.

A bag may hold any object under any key, so what it names for a digest may be any JSON value. A
digest that is a container is not looked up at all, and fetching fails for that.
-/

set_option autoImplicit false

namespace DocumentStore

namespace Json

/-- An array or an object. -/
def IsContainer : Json → Prop
  | .array _ => True
  | .object _ => True
  | _ => False

/-- The digest that an object names under a key. -/
def digestUnder? (key : String) : Json → Option Json
  | .object fields =>
      match Table.value? fields key with
      | some (.object metadata) => Table.value? metadata "digest"
      | _ => none
  | _ => none

end Json

/-- The digest that the last bag saved names under a key. -/
def Entry.digest? [Machine] (entry : Entry) (key : String) : Option Json :=
  entry.data.storedForm.toOption.bind (Json.digestUnder? key)

/-- Fetching gives a content with the digest that is named, or it reports that there is none. -/
inductive Fetched (digest : Option Json) : Outcome → Prop where
  | content (bytes : Digest.Bytes) (named : digest = some (.text (Digest.contentDigest bytes))) :
      Fetched digest (.answer (.value (.value (.bytes bytes))))
  | notFound (fault : DatabaseFault) (code : fault.code = 7) :
      Fetched digest (.failed (.database fault))

namespace Memory

section Looking

variable [Machine]
  {memory : Memory} {ledger : Ledger} {collection : Address} {identifier key : String}

/-- The engine looks for the digest that the last bag saved names. -/
theorem digest?_of_represents (represents : memory.Represents ledger) :
    (memory.document? collection identifier).bind (digest? · key) =
      (ledger (collection, identifier)).bind (Entry.digest? · key) := by
  cases known : ledger (collection, identifier) with
  | none => rw [represents.document?_eq_none known, Option.bind_none, Option.bind_none]
  | some entry =>
      obtain ⟨stored, found, version⟩ := represents.exists_version known
      rw [found, Option.bind_some, Option.bind_some, Entry.digest?, version.form]
      rfl

/-- A digest that is a container is refused, before anything is looked up. -/
theorem step_getBlobContent_of_isContainer {container : Json} (isContainer : container.IsContainer)
    (named : (memory.document? collection identifier).bind (digest? · key) = some container) :
    ∃ kind, (memory.step (.getBlobContent collection identifier key)).1 =
      .failed (.unhashable kind) := by
  simp only [step, blobContent, named]
  cases container with
  | array items => exact ⟨.array, rfl⟩
  | object fields => exact ⟨.object, rfl⟩
  | _ => exact isContainer.elim

/-- A digest that is a text is looked up. -/
theorem step_getBlobContent_of_text {digest : String}
    (named : (memory.document? collection identifier).bind (digest? · key) = some (.text digest)) :
    (memory.step (.getBlobContent collection identifier key)).1 =
      match Table.value? memory.contents digest with
      | some bytes => .answer (.value (.value (.bytes bytes)))
      | none => .failed (.database (.blobNotFound key identifier)) := by
  simp only [step, blobContent, named]
  cases Table.value? memory.contents digest <;> rfl

/-- Where every content is kept under its own digest, a digest that is no container is found or
reported missing. -/
theorem fetched_of_not_isContainer {passed : List Digest.Bytes}
    (gains : ContentStore.Gains [] memory.contents passed)
    (scalar : ∀ container, (memory.document? collection identifier).bind (digest? · key) =
      some container → ¬container.IsContainer) :
    Fetched ((memory.document? collection identifier).bind (digest? · key))
      (memory.step (.getBlobContent collection identifier key)).1 := by
  cases named : (memory.document? collection identifier).bind (digest? · key) with
  | none =>
      simp only [step, blobContent, named]
      exact .notFound (.blobNotFound key identifier) rfl
  | some digest =>
      cases digest with
      | text digest =>
          rw [step_getBlobContent_of_text named]
          cases found : Table.value? memory.contents digest with
          | none => exact .notFound (.blobNotFound key identifier) rfl
          | some bytes =>
              rcases gains.origin digest bytes found with none | ⟨_, same⟩
              · cases none
              · exact .content bytes (by rw [same])
      | array items => exact (scalar _ named trivial).elim
      | object fields => exact (scalar _ named trivial).elim
      | _ =>
          simp only [step, blobContent, named]
          exact .notFound (.blobNotFound key identifier) rfl

end Looking

/-- How fetching ends after any run. It gives a content with the digest that the last bag saved
names, or reports that there is none, if and only if this digest is no container; a container is
refused with a failure of another kind. The content that any document brought is found under its
digest, whichever document names it. -/
theorem blob_is_fetched_iff [Machine] (requests : List (Request Tree)) (collection : Address)
    (identifier key : String) :
    let final := empty.afterRun requests
    let ledger := Ledger.ofHistory (empty.history requests)
    let digest := (ledger (collection, identifier)).bind (Entry.digest? · key)
    let outcome := (final.step (.getBlobContent collection identifier key)).1
    (Fetched digest outcome ↔ ∀ container, digest = some container → ¬container.IsContainer)
      ∧ (∀ container, digest = some container → container.IsContainer →
        ∃ kind, outcome = .failed (.unhashable kind))
      ∧ ∀ other entry bytes, ledger other = some entry → bytes ∈ entry.data.contents →
        digest = some (.text (Digest.contentDigest bytes)) →
          ∃ content, outcome = .answer (.value (.value (.bytes content))) := by
  intro final ledger digest outcome
  have stocked : final.Stocked ledger _ := stocked_afterRun requests
  have named : (final.document? collection identifier).bind (digest? · key) = digest :=
    digest?_of_represents (represents_afterRun requests)
  have refused : ∀ container, digest = some container → container.IsContainer →
      ∃ kind, outcome = .failed (.unhashable kind) :=
    fun container same isContainer =>
      step_getBlobContent_of_isContainer isContainer (named.trans same)
  refine ⟨⟨fun fetched container same isContainer => ?_, fun scalar => ?_⟩, refused, ?_⟩
  · obtain ⟨kind, failed⟩ := refused container same isContainer
    rw [failed] at fetched
    cases fetched
  · have fetched := fetched_of_not_isContainer stocked.gains (named ▸ scalar)
    rwa [named] at fetched
  · intro other entry bytes known member same
    obtain ⟨_, present⟩ := stocked.stocked known bytes member
    obtain ⟨content, found⟩ := Option.isSome_iff_exists.1 present
    refine ⟨content, (step_getBlobContent_of_text (named.trans same)).trans ?_⟩
    rw [found]

/-- A bag that names an array for the digest of its photo. -/
def arrayForDigest : Json :=
  .object [("photo", .object [("digest", .array [])])]

/-- The bag is accepted, and its photo is neither fetched nor reported missing. -/
theorem array_for_digest_is_refused :
    (∃ reply, (empty.step (.save notes "trip" arrayForDigest.toTree none 0)).1.result = .ok reply)
      ∧ ((empty.afterRun [.save notes "trip" arrayForDigest.toTree none 0]).step
          (.getBlobContent notes "trip" "photo")).1 = .failed (.unhashable .array)
      ∧ ∀ digest, ¬Fetched digest
        ((empty.afterRun [.save notes "trip" arrayForDigest.toTree none 0]).step
          (.getBlobContent notes "trip" "photo")).1 := by
  have form : arrayForDigest.toTree.storedForm = .ok arrayForDigest := by
    rw [Tree.storedForm, Tree.throughText_eq]
    rfl
  have free : empty.hasConflict notes "trip" none 0 = false := rfl
  have named : ((empty.afterRun [.save notes "trip" arrayForDigest.toTree none 0]).document? notes
      "trip").bind (digest? · "photo") = some (.array []) := by
    rw [afterRun_cons, afterRun_nil, document?_step_save free form]
    rfl
  have refused : ((empty.afterRun [.save notes "trip" arrayForDigest.toTree none 0]).step
      (.getBlobContent notes "trip" "photo")).1 = .failed (.unhashable .array) := by
    rw [step, blobContent, named]
    rfl
  refine ⟨exists_reply_of_storedForm free form, refused, fun digest fetched => ?_⟩
  rw [refused] at fetched
  cases fetched

end Memory

end DocumentStore
