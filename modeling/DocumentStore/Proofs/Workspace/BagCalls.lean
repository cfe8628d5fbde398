import DocumentStore.Proofs.Engine.Forms
import DocumentStore.Proofs.Workspace.Answers
import DocumentStore.Proofs.Workspace.Conflicts

/-!
Contract: one call that changes the bag of a document, or gives the document another bag.

Owns: these calls, what each does to the store, to the bag and to the documents, and the states in
which all bags are whole.

Does not own: sequences of calls.

A call writes to one object: the bag of its document, or the bag that it gives to its document. All
that is known of other cells follows from this. Bags stay whole because whatever is reached from them
and from the value of a call is closed, and the call adds new cells only.
-/

set_option autoImplicit false

namespace DocumentStore

/-- A call of a setter, of `remove` or of `set_data`. -/
inductive BagCall where
  /-- One of the setters that take a value as it is. -/
  | set (setter key : String) (value : Value)
  | setValue (key : String) (value : Value)
  | setBlob (key : String) (value : Value)
  | setDate (key : String) (moment : Option Calendar.Moment)
  | remove (key : String)
  | setData (bag : Ref)

namespace BagCall

/-- The call on a document. -/
def action [Machine] (number : Nat) : BagCall → Action (Option Object)
  | set setter key value => Action.callDocument number setter [.value (.text key), .value value]
  | setValue key value => Action.callDocument number "set_value" [.value (.text key), .value value]
  | setBlob key value => Action.callDocument number "set_blob" [.value (.text key), .value value]
  | setDate key moment =>
      Action.callDocument number "set_date"
        [.value (.text key), .value ((moment.map Value.moment).getD .null)]
  | remove key => Action.callDocument number "remove" [.value (.text key)]
  | setData bag => Action.callDocument number "set_data" [.value (.cell bag)]

/-- A call can be made with values whose containers are all there. A blob is set to a blob or to
null, and the bag of a document is set to an object. -/
def Admitted (store : Store) : BagCall → Prop
  | set setter _ value => setter ∈ Document.plainSetters ∧ store.Intact value
  | setValue _ value => store.Intact value
  | setBlob _ value => (value = .null ∨ (store.blob? value).isSome) ∧ store.Intact value
  | setDate _ _ | remove _ => True
  | setData bag => (∃ fields, store.read? bag = some (.object fields)) ∧ store.Intact (.cell bag)

/-- The bag that a call gives to its document. -/
def given? : BagCall → Option Ref
  | setData bag => some bag
  | _ => none

/-- A date outside of the calendar is refused. -/
def refused : BagCall → Bool
  | setDate _ (some moment) => (Calendar.Timestamp.write? moment).isNone
  | _ => false

/-- The key that has a value after a call. -/
def puts? : BagCall → Option String
  | set _ key _ | setValue key _ | setBlob key _ => some key
  | setDate key moment => if (setDate key moment).refused then none else some key
  | remove _ | setData _ => none

/-- The key that has no value after a call. -/
def drops? : BagCall → Option String
  | remove key => some key
  | _ => none

/-- The keys of the bag that a call writes to, after the call. -/
def keysAfter (call : BagCall) (keys : List String) : List String :=
  match call.puts?, call.drops? with
  | some key, _ => if key ∈ keys then keys else keys ++ [key]
  | none, some key => keys.erase key
  | none, none => keys

/-- What a call answers: the document that it is called on. -/
def answer (number : Nat) (call : BagCall) : Except Failure (Option Object) :=
  if call.refused then .error .outsideCalendar else .ok (some (.document number))

/-- The change that a call makes to the store. -/
def mutation (document : Document) : BagCall → Mutation
  | set _ key value => .set document key value
  | setValue key value | setBlob key value => .setValue document key value
  | setDate key moment => .setMoment document key moment
  | remove key => .remove document key
  | setData bag => .setBag document bag

end BagCall

/-- A state after a call on a document. -/
def Workspace.afterCall (workspace : Workspace) (number : Nat) (call : BagCall) : Workspace :=
  { workspace with
    store := (call.mutation (workspace.document number)).apply workspace.store
    documents :=
      match call.given? with
      | some bag =>
          workspace.documents.setIfInBounds number { workspace.document number with bag }
      | none => workspace.documents }

namespace BagCall

/-- A call answers and changes the state. -/
theorem run_action [Machine] {workspace : Workspace} (number : Nat) {call : BagCall}
    (admitted : call.Admitted workspace.store) :
    (call.action number).run.run workspace =
      (call.answer number, workspace.afterCall number call) := by
  cases call with
  | set setter key value =>
      have listed := admitted.1
      simp only [Document.plainSetters, List.mem_cons, List.not_mem_nil, or_false] at listed
      rcases listed with rfl | rfl | rfl | rfl | rfl | rfl | rfl | rfl | rfl <;> rfl
  | setDate key moment =>
      cases moment with
      | none => rfl
      | some moment =>
          change (Action.giveBack (.document number)
            (Action.setMoment number key (some moment))).run.run workspace = _
          rw [Action.giveBack, Action.run_bind, Action.setMoment, Action.run_bind,
            Action.consultDocument, Action.run_bind, Action.run_get]
          cases written : Calendar.Timestamp.write? moment <;>
            simp only [answer, refused, Workspace.afterCall, mutation, Mutation.apply, given?,
              Document.setMoment, written] <;>
            rfl
  | _ => rfl

end BagCall

/-! ### The bag of a call -/

namespace Document

variable {store : Store} {document : Document} {fields : Table String Value}
  (read : store.read? document.bag = some (.object fields))

include read

theorem properties_of_read? : document.properties store = fields := by
  rw [properties, Store.fields, read]

theorem read?_set (key : String) (value : Value) :
    (document.set store key value).read? document.bag = some (.object (Table.put fields key value)) := by
  rw [set, Store.setField, Store.read?_write_self store _ (Store.lt_size_of_read? read), Store.fields,
    read]

theorem read?_setBlob (key : String) (blob : Blob) :
    ∃ written, (document.setBlob store key blob).read? document.bag =
      some (.object (Table.put fields key written)) :=
  ⟨_, read?_set (Store.extends_place store blob.property _ _ read) key _⟩

theorem read?_setValue (key : String) (value : Value) :
    ∃ written, (document.setValue store key value).read? document.bag =
      some (.object (Table.put fields key written)) := by
  rw [setValue]
  cases store.blob? value with
  | some blob => exact read?_setBlob read key blob
  | none => exact ⟨value, read?_set read key value⟩

theorem read?_remove (key : String) :
    (document.remove store key).read? document.bag = some (.object (Table.remove fields key)) := by
  rw [remove, Store.removeField, Store.read?_write_self store _ (Store.lt_size_of_read? read),
    Store.fields, read]

end Document

namespace BagCall

section Effect

variable {store : Store} {document : Document} {fields : Table String Value} (call : BagCall)

theorem drops?_of_puts {key : String} (puts : call.puts? = some key) : call.drops? = none := by
  cases call with
  | remove key => cases puts
  | _ => rfl

theorem keysAfter_of_given {bag : Ref} (given : call.given? = some bag) (keys : List String) :
    call.keysAfter keys = keys := by
  cases call with
  | setData bag => rfl
  | _ => cases given

theorem target_mutation : (call.mutation document).target = call.given?.getD document.bag := by
  cases call <;> rfl

/-- What a setter or a removal makes of the properties: one is put, one is removed, or all stay. -/
theorem read?_of_kept (kept : call.given? = none)
    (read : store.read? document.bag = some (.object fields)) :
    (∃ key written, call.puts? = some key ∧ call.drops? = none
        ∧ ((call.mutation document).apply store).read? document.bag =
          some (.object (Table.put fields key written)))
      ∨ (∃ key, call.puts? = none ∧ call.drops? = some key
        ∧ ((call.mutation document).apply store).read? document.bag =
          some (.object (Table.remove fields key)))
      ∨ (call.puts? = none ∧ call.drops? = none
        ∧ ((call.mutation document).apply store).read? document.bag = some (.object fields)) := by
  cases call with
  | set setter key value =>
      exact .inl ⟨key, value, rfl, rfl, Document.read?_set read key value⟩
  | setValue key value | setBlob key value =>
      obtain ⟨written, put⟩ := Document.read?_setValue read key value
      exact .inl ⟨key, written, rfl, rfl, put⟩
  | setDate key moment =>
      cases moment with
      | none => exact .inl ⟨key, .null, rfl, rfl, Document.read?_set read key .null⟩
      | some moment =>
          cases dated : Calendar.Timestamp.write? moment with
          | some text =>
              refine .inl ⟨key, .text text, ?_, rfl, ?_⟩
              · simp [puts?, refused, dated]
              · simp only [mutation, Mutation.apply, Document.setMoment, dated]
                exact Document.read?_set read key (.text text)
          | none =>
              refine .inr (.inr ⟨?_, rfl, ?_⟩)
              · simp [puts?, refused, dated]
              · simp only [mutation, Mutation.apply, Document.setMoment, dated]
                exact read
  | remove key => exact .inr (.inl ⟨key, rfl, rfl, Document.read?_remove read key⟩)
  | setData bag => cases kept

/-- The keys of a bag after a setter or a removal. What is under the other keys stays. -/
theorem exists_fields_of_kept (kept : call.given? = none) (wellKeyed : store.WellKeyed)
    (read : store.read? document.bag = some (.object fields)) :
    ∃ others, ((call.mutation document).apply store).read? document.bag = some (.object others)
      ∧ Table.keys others = call.keysAfter (Table.keys fields)
      ∧ ∀ name, call.puts? ≠ some name → call.drops? ≠ some name →
        Table.value? others name = Table.value? fields name := by
  rcases call.read?_of_kept kept read with
    ⟨key, written, puts, drops, readAfter⟩ | ⟨key, puts, drops, readAfter⟩ | ⟨puts, drops, readAfter⟩
  · refine ⟨_, readAfter, ?_, fun name differs _ => ?_⟩
    · rw [Table.keys_put, keysAfter, puts]
    · exact Table.value?_put_of_ne fields written fun same => differs (puts.trans (congrArg some same))
  · refine ⟨_, readAfter, ?_, fun name _ differs => ?_⟩
    · rw [Table.keys_remove, keysAfter, puts, drops]
    · rw [Table.value?_remove (wellKeyed _ _ read), if_neg]
      exact fun same => differs (drops.trans (congrArg some same))
  · refine ⟨_, readAfter, ?_, fun _ _ _ => rfl⟩
    rw [keysAfter, puts, drops]

/-- A bag that is given keeps its keys, and only its own blobs are rewritten. -/
theorem exists_fields_of_given (document : Document) {bag : Ref} (wellKeyed : store.WellKeyed)
    (intact : store.Intact (.cell bag)) (read : store.read? bag = some (.object fields)) :
    ∃ others, (((setData bag).mutation document).apply store).read? bag = some (.object others)
      ∧ Table.Fieldwise
        (Document.Becomes store (((setData bag).mutation document).apply store)) fields others :=
  Document.read?_setBag read (wellKeyed _ _ read) intact

/-- The keys of the bag that a call writes to. -/
theorem exists_fields_of_target (admitted : call.Admitted store) (wellKeyed : store.WellKeyed)
    (read : store.read? (call.given?.getD document.bag) = some (.object fields)) :
    ∃ others, ((call.mutation document).apply store).read? (call.given?.getD document.bag) =
        some (.object others)
      ∧ Table.keys others = call.keysAfter (Table.keys fields) := by
  cases given : call.given? with
  | none =>
      rw [given] at read
      obtain ⟨others, readAfter, keys, _⟩ := call.exists_fields_of_kept given wellKeyed read
      exact ⟨others, readAfter, keys⟩
  | some bag =>
      cases call with
      | setData bag =>
          cases given
          obtain ⟨others, readAfter, each⟩ :=
            exists_fields_of_given document wellKeyed admitted.2 read
          exact ⟨others, readAfter, each.keys_eq⟩
      | _ => cases given

/-- Other cells than the bag that a call writes to stay as they are. -/
theorem read?_of_ne (document : Document) {ref : Ref} (apart : ref ≠ call.given?.getD document.bag)
    (present : ref < store.size) :
    ((call.mutation document).apply store).read? ref = store.read? ref :=
  ((call.mutation document).spares store).others ref (by rwa [target_mutation]) present

end Effect

end BagCall

/-! ### Whole bags -/

/-- A change of a container that is there, with values whose containers are there, leaves all
containers there. -/
theorem Mutation.intact {store : Store} (mutation : Mutation)
    (target : store.Intact (.cell mutation.target))
    (brings : ∀ value ∈ mutation.brings, store.Intact value) {value : Value}
    (intact : store.Intact value) : (mutation.apply store).Intact value := by
  have within : ∀ brought ∈ mutation.brings,
      brought.Within fun ref => store.Intact (.cell ref) := by
    rintro brought member ref rfl
    exact brings _ member
  obtain ⟨grown, changes⟩ := mutation.changesOnly store.closed_intact target within
  apply changes.closed.intact
  rintro ref rfl
  exact changes.keeps ref intact

namespace Workspace

/-- Every bag is an object whose containers are all there, and no object repeats a key. -/
structure Consistent (workspace : Workspace) : Prop where
  wellKeyed : workspace.store.WellKeyed
  bags : ∀ number < workspace.documents.size, ∃ fields,
    workspace.store.read? (workspace.document number).bag = some (.object fields)
  intact : ∀ number < workspace.documents.size,
    workspace.store.Intact (.cell (workspace.document number).bag)

section AfterCall

variable {workspace : Workspace} {number : Nat} {call : BagCall}

theorem size_documents_afterCall :
    (workspace.afterCall number call).documents.size = workspace.documents.size := by
  cases call with
  | setData bag => exact Array.size_setIfInBounds
  | _ => rfl

theorem document_afterCall_of_ne {other : Nat} (different : other ≠ number) :
    (workspace.afterCall number call).document other = workspace.document other := by
  cases call with
  | setData bag => exact document_set_of_ne (Ne.symm different) rfl
  | _ => rfl

/-- A call gives a document no more than another bag. -/
theorem document_afterCall (known : number < workspace.documents.size) :
    (workspace.afterCall number call).document number =
      { workspace.document number with
        bag := call.given?.getD (workspace.document number).bag } := by
  cases call with
  | setData bag => exact document_set known rfl
  | _ => rfl

theorem documents_afterCall_of_kept (kept : call.given? = none) :
    (workspace.afterCall number call).documents = workspace.documents := by
  cases call with
  | setData bag => cases kept
  | _ => rfl

theorem document_afterCall_of_kept (kept : call.given? = none) (other : Nat) :
    (workspace.afterCall number call).document other = workspace.document other :=
  document_of_documents_eq (documents_afterCall_of_kept kept) other

variable (consistent : workspace.Consistent) (admitted : call.Admitted workspace.store)

include consistent admitted

/-- The bag that a call writes to. -/
theorem Consistent.target (known : number < workspace.documents.size) :
    (∃ fields, workspace.store.read? (call.given?.getD (workspace.document number).bag) =
        some (.object fields))
      ∧ workspace.store.Intact (.cell (call.given?.getD (workspace.document number).bag)) := by
  cases call with
  | setData bag => exact admitted
  | _ => exact ⟨consistent.bags number known, consistent.intact number known⟩

/-- An object stays an object. -/
theorem Consistent.read?_afterCall (number : Nat) {ref : Ref} {fields : Table String Value}
    (read : workspace.store.read? ref = some (.object fields)) :
    ∃ others, (workspace.afterCall number call).store.read? ref = some (.object others)
      ∧ Table.keys others =
        if ref = call.given?.getD (workspace.document number).bag then
          call.keysAfter (Table.keys fields)
        else Table.keys fields := by
  by_cases written : ref = call.given?.getD (workspace.document number).bag
  · rw [if_pos written]
    rw [written] at read ⊢
    exact call.exists_fields_of_target admitted consistent.wellKeyed read
  · rw [if_neg written]
    exact ⟨fields, (call.read?_of_ne _ written (Store.lt_size_of_read? read)).trans read, rfl⟩

variable (known : number < workspace.documents.size)

include known

theorem Consistent.intact_afterCall {value : Value} (intact : workspace.store.Intact value) :
    (workspace.afterCall number call).store.Intact value := by
  refine (call.mutation (workspace.document number)).intact ?_ ?_ intact
  · rw [call.target_mutation]
    exact (consistent.target admitted known).2
  · intro brought member
    cases call with
    | set setter key value =>
        rw [List.mem_singleton.1 member]
        exact admitted.2
    | setValue key value =>
        rw [List.mem_singleton.1 member]
        exact admitted
    | setBlob key value =>
        rw [List.mem_singleton.1 member]
        exact admitted.2
    | _ => cases member

/-- The bag that a document has after a call was whole before. -/
theorem Consistent.bag_afterCall {other : Nat} (present : other < workspace.documents.size) :
    (∃ fields, workspace.store.read? ((workspace.afterCall number call).document other).bag =
        some (.object fields))
      ∧ workspace.store.Intact (.cell ((workspace.afterCall number call).document other).bag) := by
  by_cases same : other = number
  · rw [same, document_afterCall known]
    exact consistent.target admitted known
  · rw [document_afterCall_of_ne same]
    exact ⟨consistent.bags other present, consistent.intact other present⟩

/-- A call leaves all bags whole. -/
theorem Consistent.afterCall : (workspace.afterCall number call).Consistent where
  wellKeyed := by
    refine Mutation.wellKeyed consistent.wellKeyed _ fun ref fields overwrites => ?_
    cases call <;> cases overwrites
  bags := by
    intro other present
    rw [size_documents_afterCall] at present
    obtain ⟨⟨fields, read⟩, _⟩ := consistent.bag_afterCall admitted known present
    obtain ⟨others, readAfter, _⟩ := consistent.read?_afterCall admitted number read
    exact ⟨others, readAfter⟩
  intact := by
    intro other present
    rw [size_documents_afterCall] at present
    exact consistent.intact_afterCall admitted known
      (consistent.bag_afterCall admitted known present).2

end AfterCall

/-! ### What a call changes -/

/-- A setter or a removal changes no document, and in the bag of its own document no other property
than the one it names. Whatever document has a bag that does not reach this bag answers as before,
and finds the same cells below its own. -/
structure ChangesOneProperty [Machine] (workspace last : Workspace) (number : Nat)
    (call : BagCall) : Prop where
  documents : last.documents = workspace.documents
  literal : ∀ name, call.puts? ≠ some name → call.drops? ≠ some name →
    (last.document number).property last.store name =
        (workspace.document number).property workspace.store name
      ∧ (last.document number).contains last.store name =
        (workspace.document number).contains workspace.store name
  elsewhere : ∀ other < workspace.documents.size,
    ¬workspace.store.Reaches [.cell (workspace.document other).bag]
        (.cell (workspace.document number).bag) →
      workspace.store.SameBelow last.store (.cell (workspace.document other).bag)
        ∧ ∀ method arguments, Document.Reads method arguments →
          Action.AsBefore workspace last (Action.callDocument other method arguments)

/-- A bag is given to one document, and other documents keep theirs. The bag keeps its keys in their
order; the blobs directly in it become forms, and nothing else that was there changes. -/
structure GivesBag (workspace last : Workspace) (number : Nat) (bag : Ref) : Prop where
  document : last.document number = { workspace.document number with bag }
  others : ∀ other, other ≠ number → last.document other = workspace.document other
  rewritten : ∃ fields written, workspace.store.read? bag = some (.object fields)
    ∧ last.store.read? bag = some (.object written)
    ∧ Table.Fieldwise (Document.Becomes workspace.store last.store) fields written
  cells : ∀ ref, ref ≠ bag → ref < workspace.store.size →
    last.store.read? ref = workspace.store.read? ref

variable {workspace : Workspace} {number : Nat}

theorem Consistent.changesOneProperty [Machine] {call : BagCall} (consistent : workspace.Consistent)
    (known : number < workspace.documents.size) (kept : call.given? = none) :
    workspace.ChangesOneProperty (workspace.afterCall number call) number call where
  documents := documents_afterCall_of_kept kept
  literal := by
    intro name notPut notDropped
    obtain ⟨fields, read⟩ := consistent.bags number known
    obtain ⟨others, readAfter, _, found⟩ := call.exists_fields_of_kept kept consistent.wellKeyed read
    have sought := found name notPut notDropped
    have later : (workspace.document number).properties (workspace.afterCall number call).store =
        others := Document.properties_of_read? readAfter
    rw [document_afterCall_of_kept kept]
    simp only [Document.property, Document.contains, Table.contains,
      Document.properties_of_read? read, later, sought, and_self]
  elsewhere := by
    intro other present apart
    have intact := consistent.intact other present
    have spares := (call.mutation (workspace.document number)).spares workspace.store
    have below : workspace.store.SameBelow (workspace.afterCall number call).store
        (.cell (workspace.document other).bag) := by
      refine .of_spares spares intact fun ref reaches written => apart ?_
      rwa [written, call.target_mutation, kept] at reaches
    exact ⟨below, fun method arguments reads =>
      Action.asBefore_of_reads (document_afterCall_of_kept kept other) below rfl intact
        spares.size_le reads⟩

theorem Consistent.givesBag {bag : Ref} (consistent : workspace.Consistent)
    (known : number < workspace.documents.size)
    (admitted : (BagCall.setData bag).Admitted workspace.store) :
    workspace.GivesBag (workspace.afterCall number (.setData bag)) number bag where
  document := document_afterCall known
  others := fun other different => document_afterCall_of_ne different
  rewritten := by
    obtain ⟨⟨fields, read⟩, intact⟩ := admitted
    obtain ⟨written, readAfter, each⟩ := BagCall.exists_fields_of_given (workspace.document number)
      consistent.wellKeyed intact read
    exact ⟨fields, written, read, readAfter, each⟩
  cells := fun ref apart present =>
    (BagCall.setData bag).read?_of_ne (workspace.document number) apart present

end Workspace

end DocumentStore
