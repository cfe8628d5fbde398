import DocumentStore.Proofs.Workspace.Failures

/-!
Contract: which requests the methods of objects put to an engine.

Owns: what happens to an engine between two workspaces as the events in between, the actions that
leave all engines alone, and that only four methods ask for anything but documents.

Does not own: what an engine does about a request.

`Proceeds` is what a sequence of actions preserves: whatever was asked of an engine before, a run of
it goes on, and the events that are added are all of one kind.
-/

set_option autoImplicit false

namespace DocumentStore

/-- An event that creates or deletes no index and executes no query. -/
def Event.IsOrdinary (event : Event) : Prop :=
  event.request.name ∉ ["create_index", "delete_index", "execute_query"]

/-! ### Events between two workspaces -/

namespace Workspace

variable [Machine]

/-- Between two workspaces an engine that keeps everything in memory went on, and all that happened
to it is of a kind. -/
def Proceeds (engine : Nat) (kind : Event → Prop) (before after : Workspace) : Prop :=
  ∀ requests, before.Keeps engine requests →
    ∃ more, after.Keeps engine (requests ++ more)
      ∧ ∀ event ∈ (Memory.empty.afterRun requests).history more, kind event

variable {engine : Nat} {kind wider : Event → Prop} {before between after : Workspace}

theorem proceeds_of_engine (same : after.engines[engine]? = before.engines[engine]?) :
    before.Proceeds engine kind after := by
  intro requests keeps
  refine ⟨[], ?_, by simp⟩
  rw [List.append_nil, Keeps, same]
  exact keeps

theorem Proceeds.trans (first : before.Proceeds engine kind between)
    (second : between.Proceeds engine kind after) : before.Proceeds engine kind after := by
  intro requests keeps
  obtain ⟨early, keepsBetween, kindEarly⟩ := first requests keeps
  obtain ⟨late, keepsAfter, kindLate⟩ := second _ keepsBetween
  refine ⟨early ++ late, ?_, ?_⟩
  · rw [← List.append_assoc]
    exact keepsAfter
  · rw [Memory.history_append, List.forall_mem_append, ← Memory.afterRun_append]
    exact ⟨kindEarly, kindLate⟩

theorem Proceeds.mono (proceeds : before.Proceeds engine kind after)
    (wide : ∀ event, kind event → wider event) : before.Proceeds engine wider after := by
  intro requests keeps
  obtain ⟨more, keepsAfter, kinds⟩ := proceeds requests keeps
  exact ⟨more, keepsAfter, fun event member => wide event (kinds event member)⟩

end Workspace

namespace Action

variable {α β : Type}

/-! ### Actions without engines -/

/-- An action that leaves all engines alone. -/
def Quiet (action : Action α) : Prop :=
  ∀ workspace : Workspace, (action.run.run workspace).2.engines = workspace.engines

section Quiet

theorem quiet_pure (value : α) : (pure value : Action α).Quiet :=
  fun _ => rfl

theorem quiet_get : (get : Action Workspace).Quiet :=
  fun _ => rfl

theorem quiet_throw (failure : Failure) : (throw failure : Action α).Quiet :=
  fun _ => rfl

theorem Quiet.bind {first : Action α} {others : α → Action β} (quiet : first.Quiet)
    (othersQuiet : ∀ value, (others value).Quiet) : (first >>= others).Quiet := by
  intro workspace
  have same := quiet workspace
  rw [run_bind]
  cases run : first.run.run workspace with
  | mk result between =>
      rw [run] at same
      cases result with
      | error failure => exact same
      | ok value => exact (othersQuiet value between).trans same

theorem quiet_place (draft : Draft) : (place draft).Quiet :=
  fun _ => rfl

theorem quiet_newIdentity : newIdentity.Quiet :=
  fun _ => rfl

theorem quiet_changeStore (change : Store → Store) : (changeStore change).Quiet :=
  fun _ => rfl

theorem quiet_changeDocument (number : Nat) (change : Document → Document) :
    (changeDocument number change).Quiet :=
  fun _ => rfl

theorem quiet_throughDocument (number : Nat) (change : Store → Document → Store) :
    (throughDocument number change).Quiet :=
  fun _ => rfl

theorem quiet_setBag (number : Nat) (bag : Ref) : (setBag number bag).Quiet :=
  fun _ => rfl

theorem quiet_newDocument (editable : Bool) (identifier : Option String) (sequence : Option Int)
    (revision : Option String) (bag : Option Ref) (collection : Option Nat) :
    (newDocument editable identifier sequence revision bag collection).Quiet :=
  fun _ => rfl

theorem quiet_consult (calculation : Store → Except Failure α) : (consult calculation).Quiet := by
  apply quiet_get.bind
  intro workspace
  cases calculation workspace.store with
  | ok value => exact quiet_pure value
  | error failure => exact quiet_throw failure

theorem quiet_consultDocument (number : Nat) (calculation : Store → Document → Except Failure α) :
    (consultDocument number calculation).Quiet := by
  apply quiet_get.bind
  intro workspace
  cases calculation workspace.store (workspace.document number) with
  | ok value => exact quiet_pure value
  | error failure => exact quiet_throw failure

/-- A property set to a moment changes the store only. -/
theorem quiet_setMoment (number : Nat) (key : String) (moment : Option Calendar.Moment) :
    (setMoment number key moment).Quiet :=
  (quiet_consultDocument _ _).bind fun _ => quiet_changeStore _

theorem quiet_blobOf [Machine] (number : Nat) (key : String) : (blobOf number key).Quiet := by
  apply (quiet_consultDocument _ _).bind
  intro referred
  exact (quiet_changeStore _).bind fun _ => quiet_pure _

theorem quiet_editDocument (number : Nat) : (editDocument number).Quiet :=
  quiet_get.bind fun _ => quiet_newDocument _ _ _ _ _ _

theorem quiet_readDocument (identifier : Option String) (text : String) :
    (readDocument identifier text).Quiet := by
  apply (quiet_consult _).bind
  intro json
  apply (quiet_place _).bind
  intro value
  split <;> exact quiet_newDocument _ _ _ _ _ _

theorem quiet_readBlob (text : String) : (readBlob text).Quiet := by
  unfold readBlob
  split
  · exact quiet_place _
  · exact quiet_throw _

theorem quiet_blobOfDictionary [Machine] (fields : Table String Value) :
    (blobOfDictionary fields).Quiet :=
  (quiet_consult _).bind fun _ => quiet_place _

theorem quiet_placeBag (bag : Draft) : (placeBag bag).Quiet := by
  apply (quiet_place bag).bind
  intro value
  apply quiet_get.bind
  intro workspace
  split
  · exact fun _ => rfl
  · exact quiet_pure value

theorem quiet_receive (reply : Reply) : (receive reply).Quiet := by
  cases reply with
  | value draft => exact (quiet_place draft).bind fun _ => quiet_pure _
  | saved result => exact quiet_newIdentity.bind fun _ => quiet_pure _
  | record record =>
      apply quiet_newIdentity.bind
      intro identity
      exact (quiet_placeBag _).bind fun _ => quiet_pure _

theorem quiet_parameterValues (parameters : Nat) : (parameterValues parameters).Quiet :=
  quiet_get.bind fun _ => (quiet_consult _).bind quiet_place

/-! ### Results of methods -/

theorem quiet_unknown : Action.unknown.Quiet :=
  quiet_pure none

theorem quiet_giveValue (value : Value) : (giveValue value).Quiet :=
  quiet_pure _

theorem quiet_giveText (text : Option String) : (giveText text).Quiet :=
  quiet_pure _

theorem quiet_giveNew (make : Identity → Object) : (giveNew make).Quiet :=
  quiet_newIdentity.bind fun _ => quiet_pure _

theorem quiet_giveDraft (draft : Draft) : (giveDraft draft).Quiet :=
  (quiet_place draft).bind fun _ => quiet_pure _

theorem quiet_giveBack (object : Object) {action : Action Unit} (quiet : action.Quiet) :
    (giveBack object action).Quiet :=
  quiet.bind fun _ => quiet_pure _

theorem quiet_giveNothing {action : Action Unit} (quiet : action.Quiet) :
    (giveNothing action).Quiet :=
  quiet.bind fun _ => quiet_pure _

/-- What was calculated over the store, allocated. -/
theorem quiet_giveConsulted (calculation : Store → Except Failure Draft) :
    (do giveDraft (← consult calculation) : Action (Option Object)).Quiet :=
  (quiet_consult _).bind quiet_giveDraft

theorem quiet_giveExpression (made : Option Expression) : (giveExpression made).Quiet := by
  cases made with
  | none => exact quiet_unknown
  | some expression => exact quiet_giveNew _

end Quiet

/-! ### Objects without engines -/

theorem quiet_callParameters (number : Nat) (method : String) (arguments : List Object) :
    (callParameters number method arguments).Quiet := by
  apply quiet_get.bind
  intro workspace
  split
  · apply Quiet.bind
    · exact quiet_parameterValues number
    · exact fun _ => quiet_giveValue _
  · exact quiet_giveDraft _
  · exact quiet_giveValue _
  · dsimp only
    split
    · exact quiet_pure _
    · exact quiet_giveValue _
  · exact quiet_giveBack _ fun _ => rfl
  · split
    · apply quiet_newIdentity.bind
      intro identity
      exact (quiet_consult _).bind fun _ => quiet_giveBack _ fun _ => rfl
    · exact quiet_unknown
  · split
    · exact quiet_newIdentity.bind fun _ => quiet_giveBack _ fun _ => rfl
    · exact quiet_unknown
  · exact quiet_unknown

theorem quiet_makeExpression (receiver : Expression) (method : String) (arguments : List Object) :
    (makeExpression receiver method arguments).Quiet := by
  unfold makeExpression
  split <;> exact quiet_giveExpression _

theorem quiet_callExpression (identity : Identity) (expression : Expression) (method : String)
    (arguments : List Object) : (callExpression identity expression method arguments).Quiet := by
  unfold callExpression
  split
  · exact quiet_giveConsulted _
  · split
    · exact quiet_giveText _
    · exact quiet_unknown
  · exact quiet_giveText _
  · exact quiet_pure _
  · exact quiet_makeExpression _ _ _

theorem quiet_callSortOrder (order : SortOrder) (method : String) (arguments : List Object) :
    (callSortOrder order method arguments).Quiet := by
  unfold callSortOrder
  split
  · exact quiet_giveConsulted _
  · exact quiet_giveNew _
  · exact quiet_giveNew _
  · exact quiet_unknown

theorem quiet_callIndex (index : Index) (method : String) (arguments : List Object) :
    (callIndex index method arguments).Quiet := by
  unfold callIndex
  split
  · exact quiet_giveText _
  · exact quiet_giveValue _
  · exact (quiet_consult _).bind fun _ => quiet_giveDraft _
  · exact quiet_giveConsulted _
  · split
    · exact quiet_giveNew _
    · exact quiet_unknown
  · exact quiet_giveNew _
  · exact quiet_unknown

theorem quiet_callBlob [Machine] (blob : Blob) (method : String) (arguments : List Object) :
    (callBlob blob method arguments).Quiet := by
  unfold callBlob
  split
  · exact quiet_giveValue _
  · exact quiet_giveValue _
  · exact quiet_giveValue _
  · exact quiet_giveValue _
  · exact quiet_giveDraft _
  · exact (quiet_readBlob _).bind fun _ => quiet_giveValue _
  · apply quiet_get.bind
    intro workspace
    split
    · exact (quiet_blobOfDictionary _).bind fun _ => quiet_giveValue _
    · exact quiet_unknown
  · exact quiet_giveDraft _
  · exact quiet_unknown

/-! ### Requests -/

/-- An action after which an engine that keeps everything in memory went on, with events of a kind
only. -/
def Asks [Machine] (engine : Nat) (kind : Event → Prop) (action : Action α) : Prop :=
  ∀ workspace : Workspace, workspace.Proceeds engine kind (action.run.run workspace).2

section Asks

variable [Machine] {engine : Nat} {kind : Event → Prop}

theorem Quiet.asks {action : Action α} (quiet : action.Quiet) : action.Asks engine kind :=
  fun workspace => Workspace.proceeds_of_engine (by rw [quiet workspace])

theorem proceeds_bind {first : Action α} {others : α → Action β} {workspace : Workspace}
    (proceeds : workspace.Proceeds engine kind (first.run.run workspace).2)
    (othersAsk : ∀ value, (others value).Asks engine kind) :
    workspace.Proceeds engine kind ((first >>= others).run.run workspace).2 := by
  rw [run_bind]
  cases run : first.run.run workspace with
  | mk result between =>
      rw [run] at proceeds
      cases result with
      | error failure => exact proceeds
      | ok value => exact proceeds.trans (othersAsk value between)

theorem Asks.bind {first : Action α} {others : α → Action β} (asks : first.Asks engine kind)
    (othersAsk : ∀ value, (others value).Asks engine kind) :
    (first >>= others).Asks engine kind :=
  fun workspace => proceeds_bind (asks workspace) othersAsk

/-- What an engine that keeps everything in memory is asked, it does as a request. -/
theorem proceeds_request (target : Nat) (asked : Request Value) (workspace : Workspace)
    (ofKind : target = engine →
      ∀ memory, workspace.engines[engine]? = some (.memory memory) →
        kind ⟨asked.map workspace.store.unfold,
          (memory.step (asked.map workspace.store.unfold)).1⟩) :
    workspace.Proceeds engine kind ((request target asked).run.run workspace).2 := by
  rw [request, run_converse]
  by_cases same : target = engine
  · subst same
    intro requests keeps
    have found : workspace.engines[target]? = some (.memory (Memory.empty.afterRun requests)) := keeps
    rw [found]
    refine ⟨[asked.map workspace.store.unfold], keeps.answered _ _, ?_⟩
    simpa using ofKind rfl _ found
  · cases workspace.engines[target]? with
    | none => exact Workspace.proceeds_of_engine rfl
    | some state =>
        exact Workspace.proceeds_of_engine (Array.getElem?_setIfInBounds_ne same)

theorem asks_request (target : Nat) {asked : Request Value}
    (ofKind : ∀ transform outcome, kind ⟨asked.map transform, outcome⟩) :
    (request target asked).Asks engine kind :=
  fun workspace => proceeds_request target asked workspace fun _ _ _ => ofKind _ _

theorem asks_requestOf (number : Nat) {make : Address → Request Value}
    (ofKind : ∀ address transform outcome, kind ⟨(make address).map transform, outcome⟩) :
    (requestOf number make).Asks engine kind :=
  quiet_get.asks.bind fun _ => asks_request _ (ofKind _)

theorem asks_received (number : Nat) {make : Address → Request Value}
    (ofKind : ∀ address transform outcome, kind ⟨(make address).map transform, outcome⟩)
    (give : Object → Option Object) :
    ((requestOf number make >>= receive) >>= fun object => pure (give object) :
      Action (Option Object)).Asks engine kind := by
  apply Asks.bind
  · exact (asks_requestOf number ofKind).bind fun reply => (quiet_receive reply).asks
  · exact fun _ => (quiet_pure _).asks

theorem asks_giveNothing {action : Action Unit} (asks : action.Asks engine kind) :
    (giveNothing action).Asks engine kind :=
  asks.bind fun _ => (quiet_pure _).asks

end Asks

/-! ### Objects with engines -/

section Engines

variable {engine : Nat}

theorem quiet_reportIn (number : Nat) (level : LogLevel) (about preposition : String) :
    (reportIn number level about preposition).Quiet :=
  quiet_get.bind fun _ _ => rfl

/-- A request by a name that is none of the three is ordinary. -/
theorem isOrdinary_of_name {request : Request Tree} {outcome : Outcome} {name : String}
    (named : request.name = name)
    (ordinary : name ∉ ["create_index", "delete_index", "execute_query"]) :
    Event.IsOrdinary ⟨request, outcome⟩ := by
  rw [Event.IsOrdinary, named]
  exact ordinary

variable [Machine]

theorem asks_requestOf_of_name (number : Nat) {make : Address → Request Value} {name : String}
    (named : ∀ address transform, ((make address).map transform : Request Tree).name = name)
    (ordinary : name ∉ ["create_index", "delete_index", "execute_query"]) :
    (requestOf number make).Asks engine Event.IsOrdinary :=
  asks_requestOf number fun _ _ _ => isOrdinary_of_name (named _ _) ordinary

/-- A request whose reply does not matter, after a report. -/
theorem asks_reported (number : Nat) (level : LogLevel) (about preposition : String)
    {make : Address → Request Value} {name : String}
    (named : ∀ address transform, ((make address).map transform : Request Tree).name = name)
    (ordinary : name ∉ ["create_index", "delete_index", "execute_query"]) :
    (do
      reportIn number level about preposition
      let _ ← requestOf number make : Action Unit).Asks engine Event.IsOrdinary := by
  apply (quiet_reportIn _ _ _ _).asks.bind
  intro _
  exact (asks_requestOf_of_name number named ordinary).bind fun _ => (quiet_pure ()).asks

theorem asks_blobContentIn (number : Nat) (identifier key : String) :
    (blobContentIn number identifier key).Asks engine Event.IsOrdinary := by
  apply (asks_requestOf_of_name number (fun _ _ => rfl) _).bind
  · exact fun reply => (quiet_receive reply).asks
  · simp

theorem asks_blobContent (document : Nat) (key : String) :
    (blobContent document key).Asks engine Event.IsOrdinary := by
  apply quiet_get.asks.bind
  intro workspace
  dsimp only
  split
  · exact (quiet_throw _).asks
  · exact asks_blobContentIn _ _ _

theorem asks_callProperty (number : Nat) (method key : String) (arguments : List Object) :
    (callProperty number method key arguments).Asks engine Event.IsOrdinary := by
  apply quiet_get.asks.bind
  intro workspace
  dsimp only
  split
  · exact (quiet_giveValue _).asks
  · exact ((quiet_blobOf _ _).bind fun _ => quiet_giveValue _).asks
  · exact (asks_blobContent _ _).bind fun _ => (quiet_pure _).asks
  · exact (quiet_giveBack _ (quiet_throughDocument _ _)).asks
  · split
    · exact (quiet_giveBack _ (quiet_setMoment _ _ _)).asks
    · exact quiet_unknown.asks
  · split
    · exact ((quiet_consult _).bind fun _ => quiet_giveValue _).asks
    · exact quiet_unknown.asks
  · split
    · exact (quiet_giveBack _ (quiet_throughDocument _ _)).asks
    · split
      · exact (quiet_giveBack _ (quiet_throughDocument _ _)).asks
      · exact quiet_unknown.asks
  · exact quiet_unknown.asks

theorem asks_callDocument (number : Nat) (method : String) (arguments : List Object) :
    (callDocument number method arguments).Asks engine Event.IsOrdinary := by
  apply quiet_get.asks.bind
  intro workspace
  dsimp only
  split
  · exact (quiet_giveText _).asks
  · exact (quiet_giveValue _).asks
  · exact (quiet_giveText _).asks
  · split
    · exact (quiet_pure _).asks
    · exact (quiet_giveValue _).asks
  · exact (quiet_giveValue _).asks
  · exact (quiet_giveValue _).asks
  · exact ((quiet_consult _).bind fun _ => quiet_giveText _).asks
  · exact (quiet_giveValue _).asks
  · exact (quiet_giveDraft _).asks
  · exact (quiet_giveBack _ (quiet_setBag _ _)).asks
  · exact (quiet_giveNothing (quiet_changeDocument _ _)).asks
  · exact (quiet_giveNothing (quiet_changeDocument _ _)).asks
  · split
    · exact (quiet_giveNothing (quiet_changeDocument _ _)).asks
    · exact quiet_unknown.asks
  · exact (quiet_giveNothing (quiet_changeDocument _ _)).asks
  · exact (quiet_giveNothing (quiet_changeDocument _ _)).asks
  · exact ((quiet_editDocument _).bind fun _ => quiet_pure _).asks
  · split
    · exact ((quiet_readDocument _ _).bind fun _ => quiet_pure _).asks
    · exact quiet_unknown.asks
  · exact asks_callProperty _ _ _ _
  · exact quiet_unknown.asks

theorem asks_save (number document : Nat) (control : Option ConcurrencyControl) :
    (save number document control).Asks engine Event.IsOrdinary := by
  apply quiet_get.asks.bind
  intro workspace
  apply (quiet_reportIn _ _ _ _).asks.bind
  intro _
  apply (asks_requestOf_of_name number (fun _ _ => rfl) (by simp)).bind
  intro reply
  cases reply with
  | saved result => exact (quiet_changeDocument _ _).asks
  | _ => exact (quiet_pure ()).asks

theorem asks_load (number : Nat) (identifier : String) :
    (load number identifier).Asks engine Event.IsOrdinary := by
  apply (asks_requestOf_of_name number (fun _ _ => rfl) (by simp)).bind
  intro reply
  cases reply with
  | record record =>
      apply (quiet_placeBag _).asks.bind
      intro bag
      exact ((quiet_newDocument _ _ _ _ _ _).bind fun _ => quiet_pure _).asks
  | _ => exact (quiet_pure none).asks

theorem asks_giveLoaded (number : Nat) (identifier : String) :
    (load number identifier >>= giveLoaded).Asks engine Event.IsOrdinary := by
  apply (asks_load number identifier).bind
  intro loaded
  cases loaded with
  | none => exact (quiet_giveValue _).asks
  | some document => exact (quiet_pure _).asks

theorem asks_delete (number document : Nat) (control : Option ConcurrencyControl) :
    (delete number document control).Asks engine Event.IsOrdinary :=
  quiet_get.asks.bind fun _ => asks_reported number _ _ _ (fun _ _ => rfl) (by simp)

theorem asks_purgeIdentifier (number : Nat) (identifier : String) :
    (purgeIdentifier number identifier).Asks engine Event.IsOrdinary :=
  asks_reported number _ _ _ (fun _ _ => rfl) (by simp)

theorem asks_setExpiration (number : Nat) (identifier : String) (moment : Option Calendar.Moment) :
    (setExpiration number identifier moment).Asks engine Event.IsOrdinary := by
  apply (quiet_consult _).asks.bind
  intro timestamp
  exact (asks_requestOf_of_name number (fun _ _ => rfl) (by simp)).bind fun _ => (quiet_pure ()).asks

theorem asks_expiration (number : Nat) (identifier : String) :
    (expiration number identifier).Asks engine Event.IsOrdinary := by
  apply (asks_requestOf_of_name number (fun _ _ => rfl) (by simp)).bind
  intro reply
  split
  · exact (quiet_consult _).asks
  · exact (quiet_pure none).asks

/-- A method of a collection creates or deletes an index, or what it asks is ordinary. -/
theorem proceeds_callCollection (number : Nat) (method : String) (arguments : List Object)
    (workspace : Workspace) {kind : Event → Prop} (ofOrdinary : ∀ event, event.IsOrdinary → kind event)
    (creates : ∀ name identity index, method = "create_index" →
      arguments = [.value (.text name), .index identity index] →
        workspace.Proceeds engine kind ((createIndex number name index).run.run workspace).2)
    (deletes : ∀ name, method = "delete_index" → arguments = [.value (.text name)] →
      workspace.Proceeds engine kind ((deleteIndex number name).run.run workspace).2) :
    workspace.Proceeds engine kind ((callCollection number method arguments).run.run workspace).2 := by
  have ordinary : ∀ {action : Action (Option Object)}, action.Asks engine Event.IsOrdinary →
      workspace.Proceeds engine kind (action.run.run workspace).2 :=
    fun asks => (asks workspace).mono ofOrdinary
  have quiet : ∀ {action : Action (Option Object)}, action.Quiet →
      workspace.Proceeds engine kind (action.run.run workspace).2 :=
    fun quiet => quiet.asks workspace
  have received : ∀ {make : Address → Request Value} {name : String},
      (∀ address transform, ((make address).map transform : Request Tree).name = name) →
        name ∉ ["create_index", "delete_index", "execute_query"] →
          ((requestOf number make >>= receive) >>= fun object => pure (some object) :
            Action (Option Object)).Asks engine Event.IsOrdinary :=
    fun named others => asks_received number
      (fun _ _ _ => isOrdinary_of_name (named _ _) others) some
  unfold callCollection
  split
  · split
    · exact ordinary (asks_giveNothing (asks_save number _ _))
    · exact quiet quiet_unknown
  · exact ordinary (asks_giveLoaded number _)
  · exact ordinary (asks_giveLoaded number _)
  · split
    · exact ordinary (asks_giveNothing (asks_delete number _ _))
    · exact quiet quiet_unknown
  · apply ordinary
    exact asks_giveNothing (quiet_get.asks.bind fun _ => asks_purgeIdentifier number _)
  · exact ordinary (asks_giveNothing (asks_purgeIdentifier number _))
  · exact ordinary (received (fun _ _ => rfl) (by simp))
  · exact proceeds_bind (creates _ _ _ rfl rfl) fun _ => (quiet_giveValue _).asks
  · exact proceeds_bind (deletes _ rfl rfl) fun _ => (quiet_giveValue _).asks
  · exact ordinary (received (fun _ _ => rfl) (by simp))
  · exact ordinary (received (fun _ _ => rfl) (by simp))
  · split
    · exact ordinary (asks_giveNothing (asks_setExpiration number _ _))
    · exact quiet quiet_unknown
  · exact ordinary ((asks_expiration number _).bind fun _ => (quiet_giveValue _).asks)
  · exact quiet (quiet_get.bind fun _ => quiet_pure _)
  · exact quiet (quiet_get.bind fun _ => quiet_giveText _)
  · exact quiet quiet_unknown

/-- A method of a query executes it, or what it asks is ordinary. -/
theorem asks_callQuery (number : Nat) (method : String) (arguments : List Object) :
    (callQuery number method arguments).Asks engine fun event =>
      event.IsOrdinary ∨ method = "execute" ∧ event.request.name = "execute_query" := by
  apply quiet_get.asks.bind
  intro workspace
  dsimp only
  split
  · exact (quiet_giveText _).asks
  · exact (quiet_giveText _).asks
  · exact (quiet_pure _).asks
  · exact (quiet_giveNothing fun _ => rfl).asks
  · apply Asks.bind
    · apply quiet_get.asks.bind
      intro workspace
      apply Quiet.asks (fun _ => rfl) |>.bind
      intro _
      apply (quiet_parameterValues _).asks.bind
      intro parameters
      apply (asks_request _ fun _ _ => .inr ⟨rfl, rfl⟩).bind
      exact fun reply => (quiet_receive reply).asks
    · exact fun _ => (quiet_pure _).asks
  · apply Asks.bind
    · apply quiet_get.asks.bind
      intro workspace
      apply (quiet_parameterValues _).asks.bind
      intro parameters
      have explains : ∀ {asked : Request Tree} {outcome : Outcome},
          asked.name = "explain_query" → Event.IsOrdinary ⟨asked, outcome⟩ :=
        fun named => isOrdinary_of_name named (by simp)
      apply (asks_request _ fun _ _ => .inl (explains rfl)).bind
      exact fun reply => (quiet_receive reply).asks
    · exact fun _ => (quiet_pure _).asks
  · exact quiet_unknown.asks

theorem proceeds_converse_of_scripted {target : Nat} {state : Scripted} {workspace : Workspace}
    {kind : Event → Prop} (found : workspace.engines[target]? = some (.scripted state))
    (act : Store → Engine → Outcome × Engine) :
    workspace.Proceeds engine kind ((converse target act).run.run workspace).2 := by
  rw [run_converse, found]
  by_cases same : target = engine
  · subst same
    intro requests keeps
    cases found.symm.trans keeps
  · exact Workspace.proceeds_of_engine (Array.getElem?_setIfInBounds_ne same)

/-- A method of an engine is the request of the same name. -/
theorem proceeds_callEngine (number : Nat) (method : String) (arguments : List Object)
    (workspace : Workspace) {kind : Event → Prop}
    (ofKind : ∀ asked, requestFor? method arguments = some asked → number = engine →
      ∀ memory, workspace.engines[engine]? = some (.memory memory) →
        kind ⟨asked.map workspace.store.unfold,
          (memory.step (asked.map workspace.store.unfold)).1⟩) :
    workspace.Proceeds engine kind ((callEngine number method arguments).run.run workspace).2 := by
  have receives : ∀ reply, (receive reply >>= fun object => pure (some object) :
      Action (Option Object)).Asks engine kind :=
    fun reply => ((quiet_receive reply).bind fun _ => quiet_pure _).asks
  rw [callEngine, run_bind, run_get]
  dsimp only
  split
  · next state found =>
      split
      · exact proceeds_bind (proceeds_converse_of_scripted found _) receives
      · exact quiet_unknown.asks workspace
  · split
    · next asked making =>
        exact proceeds_bind (proceeds_request number asked workspace (ofKind asked making)) receives
    · exact quiet_unknown.asks workspace

end Engines

end Action

end DocumentStore
