import DocumentStore.Proofs.Workspace.BagCalls
import DocumentStore.Proofs.Workspace.Dates
import Mathlib.Data.Prod.Lex

/-!
Contract: documents that share a bag stay in step.

Owns: runs of calls on documents that are made from one another, the bag of each document after a
run, and the order of the keys of each bag.

Does not own: what one call does.

A run is told by the deeds of its caller, the latest one first. Which bag a document has follows from
the deeds alone; so does when each key of a bag arrived, for every object that was there at the start.
Since a run leaves all bags whole, any state of it can be taken for the start of the rest, with what
was made until then.
-/

set_option autoImplicit false

namespace DocumentStore

/-! ### Runs -/

/-- What a caller does: make a container, make a document with some bag, make an editable document
from another one, or call a method that changes the bag of a document. -/
inductive Deed where
  | make (cell : Cell)
  | create (bag : Ref)
  | edit (source : Nat)
  | call (number : Nat) (call : BagCall)

/-- How many documents were made. -/
def Deed.documents : List Deed → Nat
  | [] => 0
  | .create _ :: earlier | .edit _ :: earlier => documents earlier + 1
  | .make _ :: earlier | .call _ _ :: earlier => documents earlier

namespace Workspace

/-- A run from one state to another. No object that is made repeats a key, and whatever is given for
a bag is an object whose containers are there. -/
inductive Runs [Machine] (start : Workspace) : List Deed → Workspace → Prop where
  | start : Runs start [] start
  | make {deeds : List Deed} {workspace after : Workspace} {cell : Cell} {made : Value}
      (runs : Runs start deeds workspace)
      (distinct : ∀ fields, cell = .object fields → Table.Distinct fields)
      (run : (Action.allocate cell).run.run workspace = (.ok made, after)) :
      Runs start (.make cell :: deeds) after
  | create {deeds : List Deed} {workspace after : Workspace} {editable : Bool}
      {identifier revision : Option String} {sequence : Option Int} {given : Option Ref}
      {collection : Option Nat} {number : Nat} (runs : Runs start deeds workspace)
      (whole : ∀ bag, given = some bag →
        (∃ fields, workspace.store.read? bag = some (.object fields))
          ∧ workspace.store.Intact (.cell bag))
      (run : (Action.newDocument editable identifier sequence revision given collection).run.run
        workspace = (.ok number, after)) :
      Runs start (.create (after.document number).bag :: deeds) after
  | edit {deeds : List Deed} {workspace after : Workspace} {source copy : Nat}
      (runs : Runs start deeds workspace) (known : source < workspace.documents.size)
      (run : (Action.editDocument source).run.run workspace = (.ok copy, after)) :
      Runs start (.edit source :: deeds) after
  | call {deeds : List Deed} {workspace after : Workspace} {number : Nat} {call : BagCall}
      {answer : Except Failure (Option Object)} (runs : Runs start deeds workspace)
      (known : number < workspace.documents.size) (admitted : call.Admitted workspace.store)
      (run : (call.action number).run.run workspace = (answer, after)) :
      Runs start (.call number call :: deeds) after

/-- The bag of a document: the one that was given to it last, or else the one that it was made with.
An editable document is made with the bag that its source has at that time. -/
def bagAfter (start : Workspace) : List Deed → Nat → Ref
  | [], number => (start.document number).bag
  | .make _ :: earlier, number => start.bagAfter earlier number
  | .create bag :: earlier, number =>
      if number = start.documents.size + Deed.documents earlier then bag
      else start.bagAfter earlier number
  | .edit source :: earlier, number =>
      if number = start.documents.size + Deed.documents earlier then start.bagAfter earlier source
      else start.bagAfter earlier number
  | .call target call :: earlier, number =>
      if number = target then call.given?.getD (start.bagAfter earlier number)
      else start.bagAfter earlier number

/-- When a key that an object has was inserted since it was last removed: after so many deeds, and
for the keys at the start, at which place. -/
def inserted (start : Workspace) : List Deed → Ref → String → Option (Nat ×ₗ Nat)
  | [], bag, key =>
      if key ∈ Table.keys (start.store.fields bag) then
        some (toLex (0, (Table.keys (start.store.fields bag)).idxOf key))
      else none
  | .call number call :: earlier, bag, key =>
      if start.bagAfter earlier number ≠ bag then start.inserted earlier bag key
      else if call.puts? = some key then
        some ((start.inserted earlier bag key).getD (toLex (earlier.length + 1, 0)))
      else if call.drops? = some key then none
      else start.inserted earlier bag key
  | .make _ :: earlier, bag, key | .create _ :: earlier, bag, key | .edit _ :: earlier, bag, key =>
      start.inserted earlier bag key

end Workspace

/-! ### The order of keys -/

/-- One key arrived before another one. -/
def Precedes (arrived : String → Option (Nat ×ₗ Nat)) (first second : String) : Prop :=
  ∃ sooner later, arrived first = some sooner ∧ arrived second = some later ∧ sooner < later

/-- Each key that is present is listed once, in the order of arrival. -/
structure InOrder (arrived : String → Option (Nat ×ₗ Nat)) (keys : List String) : Prop where
  nodup : keys.Nodup
  present : ∀ key, key ∈ keys ↔ (arrived key).isSome
  sorted : keys.Pairwise (Precedes arrived)

namespace InOrder

variable {arrived changed : String → Option (Nat ×ₗ Nat)} {keys : List String}

theorem start (nodup : keys.Nodup) :
    InOrder (fun key => if key ∈ keys then some (toLex (0, keys.idxOf key)) else none) keys where
  nodup := nodup
  present := by
    intro key
    by_cases member : key ∈ keys <;> simp [member]
  sorted := by
    rw [List.pairwise_iff_getElem]
    intro first second firstBound secondBound before
    refine ⟨_, _, if_pos (List.getElem_mem _), if_pos (List.getElem_mem _), ?_⟩
    rw [nodup.idxOf_getElem, nodup.idxOf_getElem, Prod.Lex.toLex_lt_toLex]
    exact .inr ⟨rfl, before⟩

/-- The order of some keys depends on when these arrived. -/
theorem sorted_congr (sorted : keys.Pairwise (Precedes arrived))
    (same : ∀ key ∈ keys, changed key = arrived key) : keys.Pairwise (Precedes changed) := by
  refine sorted.imp_of_mem fun {first second} firstMember secondMember precedes => ?_
  rwa [Precedes, same first firstMember, same second secondMember]

/-- A key that is put comes after all others, unless it is there. -/
theorem put (inOrder : InOrder arrived keys) (key : String) {now : Nat ×ₗ Nat}
    (late : ∀ other stamp, arrived other = some stamp → stamp < now)
    (sets : changed key = some ((arrived key).getD now))
    (others : ∀ other, other ≠ key → changed other = arrived other) :
    InOrder changed (if key ∈ keys then keys else keys ++ [key]) := by
  split
  · next member =>
      obtain ⟨stamp, found⟩ := Option.isSome_iff_exists.1 ((inOrder.present key).1 member)
      have same : changed = arrived := by
        funext other
        by_cases this : other = key
        · rw [this, sets, found, Option.getD_some]
        · exact others other this
      rwa [same]
  · next absent =>
      have found : arrived key = none := by
        rw [inOrder.present, Option.isSome_iff_ne_none, Classical.not_not] at absent
        exact absent
      rw [found, Option.getD_none] at sets
      have apart : ∀ other ∈ keys, other ≠ key := fun other member same => absent (same ▸ member)
      refine ⟨?_, fun other => ?_, ?_⟩
      · exact List.nodup_append.2 ⟨inOrder.nodup, List.nodup_singleton key, by simpa using apart⟩
      · by_cases same : other = key
        · simp [same, sets]
        · rw [others other same, ← inOrder.present]
          simp [same]
      · refine List.pairwise_append.2 ⟨?_, List.pairwise_singleton _ _, fun other member last is => ?_⟩
        · exact sorted_congr inOrder.sorted fun other member => others other (apart other member)
        · rw [List.mem_singleton.1 is]
          obtain ⟨stamp, held⟩ := Option.isSome_iff_exists.1 ((inOrder.present other).1 member)
          exact ⟨stamp, now, (others other (apart other member)).trans held, sets,
            late other stamp held⟩

theorem erase (inOrder : InOrder arrived keys) (key : String) (drops : changed key = none)
    (others : ∀ other, other ≠ key → changed other = arrived other) :
    InOrder changed (keys.erase key) where
  nodup := inOrder.nodup.erase key
  present := by
    intro other
    rw [inOrder.nodup.mem_erase_iff, inOrder.present]
    by_cases same : other = key
    · simp [same, drops]
    · simp [same, others]
  sorted := by
    refine sorted_congr (inOrder.sorted.sublist List.erase_sublist) fun other member => ?_
    exact others other (inOrder.nodup.mem_erase_iff.1 member).1

end InOrder

/-! ### What a run preserves -/

/-- A new document has the bag that it is given, or else an empty one of its own. -/
theorem Action.run_newDocument_bag (workspace : Workspace) (editable : Bool)
    (identifier revision : Option String) (sequence : Option Int) (given : Option Ref)
    (collection : Option Nat) :
    ∃ added after, (newDocument editable identifier sequence revision given collection).run.run
        workspace = (.ok workspace.documents.size, after)
      ∧ after.documents = workspace.documents.push added ∧ after.names = workspace.names
      ∧ ((given = some added.bag ∧ after.store = workspace.store)
        ∨ (given = none ∧ added.bag = (workspace.store.allocate (.object [])).1
          ∧ after.store = (workspace.store.allocate (.object [])).2)) := by
  cases given with
  | some bag => exact ⟨_, _, rfl, rfl, rfl, .inl ⟨rfl, rfl⟩⟩
  | none => exact ⟨_, _, rfl, rfl, rfl, .inr ⟨rfl, rfl, rfl⟩⟩

namespace Workspace

variable {start workspace after : Workspace} {deeds : List Deed}

/-- All keys that are there were inserted before now. -/
theorem inserted_lt {bag : Ref} {key : String} {stamp : Nat ×ₗ Nat}
    (arrived : start.inserted deeds bag key = some stamp) : stamp < toLex (deeds.length + 1, 0) := by
  induction deeds generalizing stamp with
  | nil =>
      rw [inserted] at arrived
      split at arrived
      · rw [← Option.some.inj arrived, Prod.Lex.toLex_lt_toLex]
        exact .inl Nat.one_pos
      · cases arrived
  | cons deed earlier inductionHypothesis =>
      have next : toLex (earlier.length + 1, 0) < toLex ((deed :: earlier).length + 1, 0) :=
        Prod.Lex.toLex_lt_toLex.2 (.inl (Nat.lt_succ_self _))
      have older : ∀ {stamp}, start.inserted earlier bag key = some stamp →
          stamp < toLex ((deed :: earlier).length + 1, 0) :=
        fun found => (inductionHypothesis found).trans next
      cases deed with
      | make cell | create made | edit source => exact older arrived
      | call number call =>
          rw [inserted] at arrived
          split at arrived
          · exact older arrived
          · split at arrived
            · cases found : start.inserted earlier bag key with
              | none =>
                  rw [found] at arrived
                  exact Option.some.inj arrived ▸ next
              | some held =>
                  rw [found] at arrived
                  exact Option.some.inj arrived ▸ older found
            · split at arrived
              · cases arrived
              · exact older arrived

/-- A call on a document with another bag inserts no key. -/
theorem inserted_call_of_ne {number : Nat} {call : BagCall} {bag : Ref}
    (other : start.bagAfter deeds number ≠ bag) :
    start.inserted (.call number call :: deeds) bag = start.inserted deeds bag := by
  funext key
  rw [inserted, if_pos other]

/-- The keys of a bag stay in order through a call on a document that has this bag. -/
theorem inOrder_call {number : Nat} {bag : Ref} {keys : List String}
    (inOrder : InOrder (start.inserted deeds bag) keys) (call : BagCall)
    (held : start.bagAfter deeds number = bag) :
    InOrder (start.inserted (.call number call :: deeds) bag) (call.keysAfter keys) := by
  have arrived : ∀ key, start.inserted (.call number call :: deeds) bag key =
      if call.puts? = some key then
        some ((start.inserted deeds bag key).getD (toLex (deeds.length + 1, 0)))
      else if call.drops? = some key then none
      else start.inserted deeds bag key := by
    intro key
    rw [inserted, if_neg (not_not.2 held)]
  rw [BagCall.keysAfter]
  split
  · next key puts =>
      refine inOrder.put key (fun _ _ => inserted_lt) (by rw [arrived, if_pos puts]) ?_
      intro other different
      have notPut : call.puts? ≠ some other :=
        fun same => different (Option.some.inj (same.symm.trans puts))
      rw [arrived, if_neg notPut, call.drops?_of_puts puts]
      rfl
  · next key puts drops =>
      have gone : start.inserted (.call number call :: deeds) bag key = none := by
        rw [arrived, puts, if_neg (Option.some_ne_none _).symm, if_pos drops]
      refine inOrder.erase key gone ?_
      intro other different
      have notDropped : call.drops? ≠ some other :=
        fun same => different (Option.some.inj (same.symm.trans drops))
      rw [arrived, puts, if_neg (Option.some_ne_none _).symm, if_neg notDropped]
  · next puts drops =>
      have same : start.inserted (.call number call :: deeds) bag = start.inserted deeds bag := by
        funext key
        simp only [arrived, puts, drops, reduceCtorEq, if_false]
      rwa [same]

/-- A state is what the deeds tell: which bag each document has, and in which order the keys of the
objects at the start stand. The documents at the start are what they were but for their bags. -/
structure Follows (start : Workspace) (deeds : List Deed) (workspace : Workspace) : Prop where
  consistent : workspace.Consistent
  names : workspace.names = start.names
  size : workspace.documents.size = start.documents.size + Deed.documents deeds
  bags : ∀ number < workspace.documents.size,
    (workspace.document number).bag = start.bagAfter deeds number
  identities : ∀ number < start.documents.size,
    workspace.document number = { start.document number with bag := start.bagAfter deeds number }
  inOrder : ∀ bag fields, start.store.read? bag = some (.object fields) →
    ∃ now, workspace.store.read? bag = some (.object now)
      ∧ InOrder (start.inserted deeds bag) (Table.keys now)

namespace Follows

theorem atStart (consistent : start.Consistent) : start.Follows [] start where
  consistent := consistent
  names := rfl
  size := rfl
  bags := fun _ _ => rfl
  identities := fun _ _ => rfl
  inOrder := by
    intro bag fields read
    have arrived : start.inserted [] bag = fun key =>
        if key ∈ Table.keys fields then some (toLex (0, (Table.keys fields).idxOf key)) else none := by
      funext key
      rw [inserted, Store.fields, read]
    rw [arrived]
    exact ⟨fields, read, .start (consistent.wellKeyed bag fields read)⟩

variable (follows : start.Follows deeds workspace)

include follows

theorem make {cell : Cell} {made : Value}
    (distinct : ∀ fields, cell = .object fields → Table.Distinct fields)
    (run : (Action.allocate cell).run.run workspace = (.ok made, after)) :
    start.Follows (.make cell :: deeds) after := by
  obtain rfl : { workspace with store := (workspace.store.allocate cell).2 } = after :=
    congrArg Prod.snd run
  have extension := Store.Extends.allocate workspace.store cell
  refine ⟨⟨follows.consistent.wellKeyed.allocate distinct, ?_, ?_⟩, follows.names, follows.size,
    follows.bags, follows.identities, ?_⟩
  · intro number known
    obtain ⟨fields, read⟩ := follows.consistent.bags number known
    exact ⟨fields, extension _ _ read⟩
  · exact fun number known => (follows.consistent.intact number known).of_extends extension
  · intro bag fields read
    obtain ⟨now, readNow, inOrder⟩ := follows.inOrder bag fields read
    exact ⟨now, extension _ _ readNow, inOrder⟩

/-- A document that is made changes nothing of what was there. -/
theorem push {deed : Deed} {added : Document} (extension : Store.Extends after.store workspace.store)
    (wellKeyed : after.store.WellKeyed) (names : after.names = workspace.names)
    (documents : after.documents = workspace.documents.push added)
    (object : ∃ fields, after.store.read? added.bag = some (.object fields))
    (intact : after.store.Intact (.cell added.bag))
    (counted : Deed.documents (deed :: deeds) = Deed.documents deeds + 1)
    (told : ∀ number, start.bagAfter (deed :: deeds) number =
      if number = start.documents.size + Deed.documents deeds then added.bag
      else start.bagAfter deeds number)
    (arrived : start.inserted (deed :: deeds) = start.inserted deeds) :
    start.Follows (deed :: deeds) after := by
  have size : after.documents.size = workspace.documents.size + 1 := by
    rw [documents, Array.size_push]
  have latest : after.document workspace.documents.size = added := document_push documents
  have old : ∀ number < workspace.documents.size, after.document number = workspace.document number :=
    fun number present => document_push_of_lt documents present
  -- every fact about documents is shown for the earlier ones and for the latest
  have cases : ∀ number < after.documents.size,
      number < workspace.documents.size ∨ number = workspace.documents.size :=
    fun number present => Nat.lt_succ_iff_lt_or_eq.1 (by rwa [size] at present)
  refine ⟨⟨wellKeyed, ?_, ?_⟩, names.trans follows.names, ?_, ?_, ?_, ?_⟩
  · intro number present
    rcases cases number present with earlier | rfl
    · obtain ⟨fields, read⟩ := follows.consistent.bags number earlier
      rw [old number earlier]
      exact ⟨fields, extension _ _ read⟩
    · rwa [latest]
  · intro number present
    rcases cases number present with earlier | rfl
    · rw [old number earlier]
      exact (follows.consistent.intact number earlier).of_extends extension
    · rwa [latest]
  · rw [size, follows.size, counted, Nat.add_assoc]
  · intro number present
    rw [told, ← follows.size]
    rcases cases number present with earlier | rfl
    · rw [old number earlier, if_neg (Nat.ne_of_lt earlier), follows.bags number earlier]
    · rw [latest, if_pos rfl]
  · intro number first
    have earlier : number < workspace.documents.size := by
      rw [follows.size]
      omega
    rw [old number earlier, follows.identities number first, told, if_neg (by omega)]
  · intro bag fields read
    obtain ⟨now, readNow, inOrder⟩ := follows.inOrder bag fields read
    exact ⟨now, extension _ _ readNow, arrived ▸ inOrder⟩

theorem create {editable : Bool} {identifier revision : Option String} {sequence : Option Int}
    {given : Option Ref} {collection : Option Nat} {number : Nat}
    (whole : ∀ bag, given = some bag →
      (∃ fields, workspace.store.read? bag = some (.object fields)) ∧ workspace.store.Intact (.cell bag))
    (run : (Action.newDocument editable identifier sequence revision given collection).run.run
      workspace = (.ok number, after)) :
    start.Follows (.create (after.document number).bag :: deeds) after := by
  obtain ⟨added, made, making, documents, names, bags⟩ := Action.run_newDocument_bag workspace
    editable identifier revision sequence given collection
  cases making.symm.trans run
  have told : ∀ index, start.bagAfter (.create (after.document workspace.documents.size).bag :: deeds)
      index = if index = start.documents.size + Deed.documents deeds then added.bag
        else start.bagAfter deeds index := by
    intro index
    rw [bagAfter, document_push documents]
  rcases bags with ⟨same, store⟩ | ⟨_, fresh, store⟩
  · obtain ⟨object, intact⟩ := whole added.bag same
    exact follows.push (store ▸ .refl _) (store ▸ follows.consistent.wellKeyed) names documents
      (store ▸ object) (store ▸ intact) rfl told rfl
  · have read : after.store.read? added.bag = some (.object []) := by
      rw [store, fresh]
      exact Store.read?_allocate_self workspace.store (.object [])
    have intact : after.store.Intact (.cell added.bag) :=
      (Store.Founded.container read (by simp [Cell.values])).intact
    refine follows.push (store ▸ .allocate _ _) ?_ names documents ⟨[], read⟩ intact rfl told rfl
    rw [store]
    exact follows.consistent.wellKeyed.allocate fun fields same => by cases same; exact List.nodup_nil

theorem edit {source copy : Nat} (known : source < workspace.documents.size)
    (run : (Action.editDocument source).run.run workspace = (.ok copy, after)) :
    start.Follows (.edit source :: deeds) after := by
  rw [Action.editDocument, Action.run_bind, Action.run_get] at run
  obtain ⟨added, made, making, documents, names, bags⟩ := Action.run_newDocument_bag workspace true
    (some (workspace.document source).identifier) (workspace.document source).revision
    (some (workspace.document source).sequence) (some (workspace.document source).bag)
    (workspace.collectionOf (workspace.document source))
  obtain rfl : made = after := congrArg Prod.snd (making.symm.trans run)
  rcases bags with ⟨same, store⟩ | ⟨missing, _⟩
  · have bag : (workspace.document source).bag = added.bag := Option.some.inj same
    refine follows.push (store ▸ .refl _) (store ▸ follows.consistent.wellKeyed) names documents
      (store ▸ bag ▸ follows.consistent.bags source known)
      (store ▸ bag ▸ follows.consistent.intact source known) rfl (fun number => ?_) rfl
    rw [bagAfter, ← bag, follows.bags source known]
  · cases missing

theorem call {number : Nat} {call : BagCall} (known : number < workspace.documents.size)
    (admitted : call.Admitted workspace.store) :
    start.Follows (.call number call :: deeds) (workspace.afterCall number call) where
  consistent := follows.consistent.afterCall admitted known
  names := follows.names
  size := size_documents_afterCall.trans follows.size
  bags := by
    intro other present
    rw [size_documents_afterCall] at present
    rw [bagAfter, ← follows.bags other present]
    by_cases same : other = number
    · rw [if_pos same, same, document_afterCall known]
    · rw [if_neg same, document_afterCall_of_ne same]
  identities := by
    intro other first
    have present : other < workspace.documents.size := by
      rw [follows.size]
      omega
    rw [bagAfter, ← follows.bags other present]
    by_cases same : other = number
    · rw [if_pos same, same, document_afterCall known]
      generalize call.given?.getD (workspace.document number).bag = bag
      rw [follows.identities number (same ▸ first)]
    · rw [if_neg same, document_afterCall_of_ne same]
      exact (follows.identities other first).trans (by rw [follows.bags other present])
  inOrder := by
    intro bag fields read
    obtain ⟨now, readNow, inOrder⟩ := follows.inOrder bag fields read
    obtain ⟨others, readAfter, keys⟩ := follows.consistent.read?_afterCall admitted number readNow
    refine ⟨others, readAfter, ?_⟩
    rw [keys]
    have own := follows.bags number known
    -- a call that gives a bag writes to this bag, but no keys; any other writes to the bag held
    cases given : call.given? with
    | none =>
        rw [Option.getD_none, own]
        by_cases held : bag = start.bagAfter deeds number
        · rw [if_pos held]
          exact inOrder_call inOrder call held.symm
        · rw [if_neg held, inserted_call_of_ne (Ne.symm held)]
          exact inOrder
    | some other =>
        have same : call.keysAfter (Table.keys now) = Table.keys now := call.keysAfter_of_given given _
        rw [same, ite_self]
        by_cases held : start.bagAfter deeds number = bag
        · have written := inOrder_call inOrder call held
          rwa [same] at written
        · rwa [inserted_call_of_ne held]

end Follows

theorem Runs.follows [Machine] (runs : start.Runs deeds workspace) (consistent : start.Consistent) :
    start.Follows deeds workspace := by
  -- by induction on the run, one lemma for each deed; a call answers whatever it does
  induction runs with
  | start => exact .atStart consistent
  | make _ distinct run inductionHypothesis => exact inductionHypothesis.make distinct run
  | create _ whole run inductionHypothesis => exact inductionHypothesis.create whole run
  | edit _ known run inductionHypothesis => exact inductionHypothesis.edit known run
  | @call _ _ _ number _ _ _ known admitted run inductionHypothesis =>
      rw [BagCall.run_action number admitted] at run
      obtain rfl := congrArg Prod.snd run
      exact inductionHypothesis.call known admitted

/-- At its start a program has no documents, and whatever it has later comes from its deeds. -/
theorem consistent_start (environment : Table String String) :
    (Workspace.start environment).Consistent where
  wellKeyed := .empty
  bags := fun _ known => absurd known (Nat.not_lt_zero _)
  intact := fun _ known => absurd known (Nat.not_lt_zero _)

/-! ### Shared bags -/

/-- The keys that `get_keys` lists. -/
def Lists [Machine] (workspace : Workspace) (number : Nat) (keys : List String) : Prop :=
  ∃ value listing,
    (Action.callDocument number "get_keys" []).run.run workspace = (.ok (some (.value value)), listing)
      ∧ listing.store.array? value = some (keys.map Value.text)

theorem lists_keys [Machine] (workspace : Workspace) (number : Nat) :
    workspace.Lists number ((workspace.document number).keys workspace.store) := by
  refine ⟨_, _, Action.run_get_keys workspace number, ?_⟩
  simp only [Store.place, Store.placeItems_texts, Store.array?, Store.read?_allocate_self]

/-- All documents that were there before some deeds tell the same of what they are, and a bag that
was there lists the keys that were inserted and not removed since, in the order of their insertion. -/
structure TellsSince [Machine] (before : Workspace) (deeds : List Deed) (after : Workspace) :
    Prop where
  identities : ∀ number < before.documents.size, ∀ method ∈ Document.identityReaders,
    (Action.callDocument number method []).run.run after =
      (((Action.callDocument number method []).run.run before).1, after)
  keys : ∀ number < after.documents.size, ∀ fields,
    before.store.read? (after.document number).bag = some (.object fields) →
      ∃ keys, after.Lists number keys
        ∧ InOrder (before.inserted deeds (after.document number).bag) keys

/-- After some deeds the bag of each document is the one that was given to it last, or the one that
it was made with, and the documents at the start are what they were but for their bags. Documents
with one bag answer alike. From any state of the run on, documents tell of what happened since. The
next call gives a bag to its document, or changes one property of the bag, and nothing else. -/
structure StaysInStep [Machine] (start : Workspace) (deeds : List Deed) (after : Workspace) :
    Prop where
  follows : start.Follows deeds after
  alike : ∀ left right, (after.document left).bag = (after.document right).bag →
    ∀ method arguments, Document.ReadsBag method arguments →
      (Action.callDocument left method arguments).run.run after =
        (Action.callDocument right method arguments).run.run after
  since : ∀ earlier middle later, start.Runs earlier middle → middle.Runs later after →
    middle.TellsSince later after
  next : ∀ number < after.documents.size, ∀ call : BagCall, call.Admitted after.store →
    ∃ last, (call.action number).run.run after = (call.answer number, last)
      ∧ start.Follows (.call number call :: deeds) last
      ∧ (∀ bag, call = .setData bag → after.GivesBag last number bag)
      ∧ (call.given? = none → after.ChangesOneProperty last number call)

/-- Documents that share bags stay in step, in every run. -/
theorem shared_bags_stay_in_step [Machine] (consistent : start.Consistent)
    (runs : start.Runs deeds after) :
    start.StaysInStep deeds after := by
  have follows := runs.follows consistent
  refine ⟨follows, ?_, ?_, ?_⟩
  · exact fun left right same method arguments reads => Action.run_eq_of_bag_eq same reads
  · intro earlier middle later before rest
    have since := rest.follows (before.follows consistent).consistent
    refine ⟨fun number known method listed => ?_, fun number known fields read => ?_⟩
    · exact Action.run_identityReader (since.identities number known) since.names listed
    · obtain ⟨now, readNow, inOrder⟩ := since.inOrder _ fields read
      refine ⟨_, after.lists_keys number, ?_⟩
      rwa [Document.keys, Document.properties_of_read? readNow]
  · intro number known call admitted
    refine ⟨_, BagCall.run_action number admitted, follows.call known admitted, ?_, ?_⟩
    · rintro bag rfl
      exact follows.consistent.givesBag known admitted
    · exact follows.consistent.changesOneProperty known

/-- A document with two properties. -/
def shelf : Workspace :=
  { Workspace.start [] with
    store := (Store.empty.allocate (.object [("a", .integer 1), ("b", .integer 2)])).2
    documents := #[⟨true, "shelf", 1, some "1-abc", 0, none⟩] }

/-- A second document takes one property away from the bag and sets it again; then the first one gets
a bag of its own. -/
def rearranging : List Deed :=
  [.call 0 (.setData 1), .make (.object [("c", .null)]), .call 1 (.setValue "a" .null),
    .call 1 (.remove "a"), .edit 0]

theorem consistent_shelf : shelf.Consistent where
  wellKeyed := Store.WellKeyed.empty.allocate fun fields same => by
    cases same
    simp [Table.Distinct]
  bags := by
    intro number known
    obtain rfl : number = 0 := Nat.lt_one_iff.1 known
    exact ⟨_, rfl⟩
  intact := by
    intro number known
    obtain rfl : number = 0 := Nat.lt_one_iff.1 known
    have read : shelf.store.read? 0 = some (.object [("a", .integer 1), ("b", .integer 2)]) := rfl
    exact (Store.Founded.container read (by simp [Cell.values, Store.Founded.scalar])).intact

/-- The second document keeps the bag, in which the property now stands last. -/
theorem rearranged_shelf_stays_in_step : shelf.Consistent ∧ ∃ after, shelf.Runs rearranging after
    ∧ (after.document 0).bag = 1 ∧ (after.document 1).bag = 0
    ∧ after.Lists 1 ["b", "a"]
    ∧ ∃ keys, after.Lists 1 keys ∧ InOrder (shelf.inserted rearranging 0) keys := by
  obtain ⟨after, runs, lists⟩ : ∃ after, shelf.Runs rearranging after ∧ after.Lists 1 ["b", "a"] := by
    have scalar : ∀ {store : Store}, store.Intact .null := .of_scalar (by simp)
    refine ⟨_, .call (.make (.call (.call (.edit .start ?_ rfl) ?_ trivial rfl) ?_ scalar rfl) ?_ rfl)
      ?_ ⟨⟨[("c", .null)], rfl⟩, ?_⟩ rfl, _, _, rfl, rfl⟩
    · decide
    · decide
    · decide
    · intro fields same
      cases same
      simp [Table.Distinct]
    · decide
    · refine (@Store.Founded.container _ 1 (.object [("c", .null)]) rfl ?_).intact
      simp [Cell.values, Store.Founded.scalar]
  have inStep := shared_bags_stay_in_step consistent_shelf runs
  have size : after.documents.size = 2 := inStep.follows.size
  have bag : ∀ number < 2, (after.document number).bag = shelf.bagAfter rearranging number :=
    fun number known => inStep.follows.bags number (size ▸ known)
  have first : (after.document 0).bag = 1 := (bag 0 (by decide)).trans rfl
  have second : (after.document 1).bag = 0 := (bag 1 (by decide)).trans rfl
  have keys := (inStep.since [] shelf rearranging .start runs).keys 1 (size ▸ by decide)
    [("a", .integer 1), ("b", .integer 2)] (by rw [second]; rfl)
  rw [second] at keys
  exact ⟨consistent_shelf, after, runs, first, second, lists, keys⟩

end Workspace

end DocumentStore
