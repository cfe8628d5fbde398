import DocumentStore.Proofs.Heap.Copies
import DocumentStore.Proofs.Json.Grammar
import DocumentStore.Proofs.Workspace.Calls

/-!
Contract: parameters are what the operations on them left.

Owns: what is relied on of a writer of parameters, the operation that each method of parameters
does, the readings of parameters by their operations, and the ways in which a call of a method can
go.

Does not own: the containers that the values refer to.

`ParametersCall` says everything that a call can do; what is said of parameters further on is
drawn from it.
-/

set_option autoImplicit false

namespace DocumentStore

/-- Each entry of a table is a key with what is found under it. -/
theorem Table.map_eq_map_keys {κ α : Type} [DecidableEq κ] {table : Table κ α}
    (distinct : Distinct table) :
    (table.map fun entry => (entry.1, some entry.2)) =
      (keys table).map fun key => (key, value? table key) := by
  rw [keys, List.map_map]
  apply List.map_congr_left
  intro entry member
  rw [Function.comp_apply, (value?_eq_some_iff distinct).2 member]

/-! ### Types and writers -/

/-- The word for a type. -/
def ParameterType.word : ParameterType → String
  | value => "value"
  | string => "string"
  | boolean => "boolean"
  | float => "float"
  | double => "double"
  | long => "long"
  | int => "int"
  | date => "date"

theorem ParameterType.name_eq_word (type : ParameterType) : type.name = type.word := by
  cases type <;> rfl

/-- What is relied on of a writer. A value that does not stand inside itself is written as a copy of
it and the word for its type; and whatever else is written, no array or object is taken over into
it. Nothing is said of when a value that stands inside itself is written. -/
structure Parameter.Writer.CopiesContainers (write : Writer) : Prop where
  copies : ∀ (store : Store) (value : Value) (type : String) (copy : Draft),
    (store.unfold value).copy? = some copy →
      write store value type = .ok (.object [("value", copy), ("type", .text type)])
  separates : ∀ (store : Store) (value : Value) (type : String) (written : Draft),
    store.WellKeyed → write store value type = .ok written → store.SharesOnlyBlobs value written

theorem Parameter.Writer.copiesContainers_copying : copying.CopiesContainers where
  copies := by
    intro store value type copy copied
    rw [copying, copied]
  separates := by
    intro store value type written wellKeyed done
    unfold copying at done
    split at done
    · next copy copied =>
        cases done
        have shares := Store.sharesOnlyBlobs_of_copy? wellKeyed copied
        have leaves : (Draft.object [("value", copy), ("type", .text type)]).leaves =
            copy.leaves ++ [.text type] := rfl
        refine ⟨⟨by simp [Table.Distinct, Table.keys], shares.isCopy, trivial, trivial⟩,
          fun ref member => ?_, fun ref member => ?_⟩
        · rw [leaves, List.mem_append, List.mem_singleton] at member
          exact shares.reached ref (member.resolve_right (by rintro ⟨⟩))
        · rw [leaves, List.mem_append, List.mem_singleton] at member
          exact shares.blobs ref (member.resolve_right (by rintro ⟨⟩))
    · cases done

namespace Parameters

/-! ### Operations -/

/-- A name that is bound to a parameter or left unbound. -/
abbrev Operation := String × Option Parameter

/-- What is bound to a name after some operations: what the last of them for this name bound. -/
def last (operations : List Operation) (name : String) : Option Parameter :=
  (Table.value? operations.reverse name).join

/-- The names of some operations, each of them once, in the order of their first use. -/
def namesOf (operations : List Operation) : List String :=
  (operations.map Prod.fst).eraseDups

theorem names_ofEntries (operations : List Operation) :
    names (Table.ofEntries operations) = namesOf operations :=
  Table.keys_ofEntries operations

theorem get?_ofEntries (operations : List Operation) (name : String) :
    get? (Table.ofEntries operations) name = last operations name :=
  congrArg Option.join (Table.value?_ofEntries operations name)

theorem mem_of_get? {parameters : Parameters} {name : String} {parameter : Parameter}
    (found : parameters.get? name = some parameter) :
    some parameter ∈ parameters.map Prod.snd := by
  have held := Option.join_eq_some_iff.1 found
  exact List.mem_map.2 ⟨_, Table.mem_of_value? held, rfl⟩

section Shown

variable (write : Parameter.Writer) (store : Store)

/-- What an engine receives for a name after some operations: what the last operation on it bound,
as it is written, or null if it left the name unbound. -/
def slotShown : Option Parameter → Except Failure Draft
  | none => .ok (.value .null)
  | some parameter => write store parameter.value parameter.type.word

/-- The object that an engine receives after some operations: each name once, in the order of its
first use. The first parameter that cannot be written is the failure. -/
def shown (operations : List Operation) : Except Failure Draft := do
  let fields ← (namesOf operations).mapM fun name => do
    let slot ← slotShown write store (last operations name)
    return (name, slot)
  return .object fields

theorem slotDraft_eq_slotShown (slot : Option Parameter) :
    slotDraft write store slot = slotShown write store slot := by
  cases slot with
  | none => rfl
  | some parameter => rw [slotDraft, slotShown, ParameterType.name_eq_word]

theorem draft_ofEntries (operations : List Operation) :
    draft write store (Table.ofEntries operations) = shown write store operations := by
  let writeEntry (entry : String × Option (Option Parameter)) : Except Failure (String × Draft) := do
    let slot ← slotDraft write store entry.2.join
    return (entry.1, slot)
  have byKeys := congrArg (List.mapM writeEntry)
    (Table.map_eq_map_keys (Table.distinct_ofEntries operations))
  rw [List.mapM_map, List.mapM_map, Table.keys_ofEntries] at byKeys
  have each : (writeEntry ∘ fun name => (name, Table.value? (Table.ofEntries operations) name)) =
      fun name => do
        let slot ← slotShown write store (last operations name)
        return (name, slot) := by
    funext name
    rw [← get?_ofEntries, ← slotDraft_eq_slotShown]
    rfl
  rw [each] at byKeys
  exact congrArg (· >>= fun fields => pure (Draft.object fields)) byKeys

/-- What shows an unbound name is null, and what shows a parameter is a copy of its value, with the
word for its type. -/
def SlotCopies : Option Parameter → Draft → Prop
  | none, slot => slot = .value .null
  | some parameter, slot => ∃ copy, (store.unfold parameter.value).copy? = some copy
      ∧ slot = .object [("value", copy), ("type", .text parameter.type.word)]

/-- These fields show what some operations left: each name once, in the order of its first use, with
a copy of what the last operation on it bound. -/
def Copies (operations : List Operation) (fields : List (String × Draft)) : Prop :=
  List.Forall₂ (fun name field =>
    field.1 = name ∧ SlotCopies store (last operations name) field.2) (namesOf operations) fields

theorem slotShown_of_copies {write : Parameter.Writer} {store : Store}
    (copies : write.CopiesContainers) {slot : Option Parameter} {field : Draft}
    (slotCopies : SlotCopies store slot field) : slotShown write store slot = .ok field := by
  cases slot with
  | none =>
      cases slotCopies
      rfl
  | some parameter =>
      obtain ⟨copy, copied, rfl⟩ := slotCopies
      exact copies.copies store parameter.value _ copy copied

/-- Where all values can be copied, an engine receives the copies. -/
theorem shown_of_copies {write : Parameter.Writer} {store : Store}
    (copies : write.CopiesContainers) {operations : List Operation} {fields : List (String × Draft)}
    (each : Copies store operations fields) :
    shown write store operations = .ok (.object fields) := by
  have listed : ((namesOf operations).mapM fun name => do
      let slot ← slotShown write store (last operations name)
      return (name, slot)) = .ok fields := by
    unfold Copies at each
    generalize namesOf operations = names at each ⊢
    induction each with
    | nil => rfl
    | cons first _ inductionHypothesis =>
        obtain ⟨rfl, slotCopies⟩ := first
        rw [List.mapM_cons, inductionHypothesis, slotShown_of_copies copies slotCopies]
        rfl
  rw [shown, listed]
  rfl

end Shown

/-- The type with which a method binds what it is given. -/
def declared? : String → Option ParameterType
  | "set_value" => some .value
  | "set_string" => some .string
  | "set_boolean" => some .boolean
  | "set_float" => some .float
  | "set_double" => some .double
  | "set_long" => some .long
  | "set_int" => some .int
  | _ => none

theorem ofMethod?_eq_declared? (method : String) :
    ParameterType.ofMethod? method = declared? method := by
  unfold ParameterType.ofMethod?
  split <;> simp_all [declared?]

/-- The operation that a method does, where the next object gets this identity. A moment is bound as
its timestamp, and one without a timestamp is not bound. -/
def operation? (identity : Identity) (method : String) (arguments : List Object) :
    Option Operation :=
  match method, arguments with
  | "remove", [.value (.text name)] => some (name, none)
  | "set_date", [.value (.text name), .value .null] => some (name, some ⟨identity, .null, .date⟩)
  | "set_date", [.value (.text name), .value (.moment moment)] =>
      (Calendar.Timestamp.write? moment).map fun timestamp =>
        (name, some ⟨identity, .text timestamp, .date⟩)
  | _, [.value (.text name), .value value] =>
      (declared? method).map fun type => (name, some ⟨identity, value, type⟩)
  | _, _ => none

theorem operation?_set_date (identity : Identity) (name : String) (given : Object) :
    operation? identity "set_date" [.value (.text name), given] =
      given.moment?.bind fun moment => (Parameter.ofMoment identity moment).toOption.map
        fun parameter => (name, some parameter) := by
  cases given with
  | value value =>
      cases value with
      | moment moment =>
          show (Calendar.Timestamp.write? moment).map _ =
            (Parameter.ofMoment identity (some moment)).toOption.map _
          rw [Parameter.ofMoment]
          cases Calendar.Timestamp.write? moment <;> rfl
      | _ => rfl
  | _ => rfl

/-- A parameter that a method binds holds a value that the method was given, or a date. -/
theorem value_of_operation? {identity : Identity} {method : String} {arguments : List Object}
    {name : String} {parameter : Parameter}
    (operates : operation? identity method arguments = some (name, some parameter)) :
    .value parameter.value ∈ arguments ∨ ∀ ref, parameter.value ≠ .cell ref := by
  unfold operation? at operates
  split at operates
  · cases operates
  · cases operates
    exact .inr (by rintro ref ⟨⟩)
  · obtain ⟨timestamp, _, same⟩ := Option.map_eq_some_iff.1 operates
    cases same
    exact .inr (by rintro ref ⟨⟩)
  · obtain ⟨type, _, same⟩ := Option.map_eq_some_iff.1 operates
    cases same
    exact .inl (List.mem_cons_of_mem _ (List.mem_singleton_self _))
  · cases operates

/-! ### The object for an engine -/

section Draft

variable {write : Parameter.Writer} {store : Store} {mine : Ref → Prop} {parameters : Parameters}
  {written : Draft}

/-- What an engine receives has one field for each name, in their order. -/
theorem fieldwise_of_draft (done : parameters.draft write store = .ok written) :
    ∃ fields, written = .object fields
      ∧ Table.Fieldwise (fun slot field => slotDraft write store slot = .ok field) parameters
        fields := by
  obtain ⟨fields, each, same⟩ := Tree.bind_eq_ok.1 done
  cases same
  refine ⟨fields, rfl, ?_⟩
  clear done
  induction parameters generalizing fields with
  | nil =>
      cases each
      exact .nil
  | cons entry rest inductionHypothesis =>
      rw [List.mapM_cons] at each
      obtain ⟨field, first, each⟩ := Tree.bind_eq_ok.1 each
      obtain ⟨others, remaining, same⟩ := Tree.bind_eq_ok.1 each
      obtain ⟨slot, writing, sameField⟩ := Tree.bind_eq_ok.1 first
      cases same
      cases sameField
      exact .cons writing (inductionHypothesis others remaining)

variable (copies : write.CopiesContainers) (wellKeyed : store.WellKeyed)

include copies wellKeyed

theorem sharesOnlyBlobs_of_slotDraft {slot : Option Parameter}
    (done : slotDraft write store slot = .ok written) :
    store.SharesOnlyBlobs ((slot.map Parameter.value).getD .null) written := by
  cases slot with
  | none =>
      cases done
      exact .scalar (by rintro ref ⟨⟩)
  | some parameter => exact copies.separates _ _ _ _ wellKeyed done

variable (done : parameters.draft write store = .ok written)

include done

theorem isCopy_of_draft (distinct : Table.Distinct parameters) : written.IsCopy := by
  obtain ⟨fields, rfl, each⟩ := fieldwise_of_draft done
  refine ⟨each.distinct distinct, ?_⟩
  clear done distinct
  induction each with
  | nil => exact trivial
  | cons writing _ inductionHypothesis =>
      exact ⟨(sharesOnlyBlobs_of_slotDraft copies wellKeyed writing).isCopy, inductionHypothesis⟩

/-- What an engine receives is built from what the single parameters are written as. -/
theorem mem_leaves_of_draft {leaf : Value} (member : leaf ∈ written.leaves) :
    ∃ slot field, slot ∈ parameters.map Prod.snd
      ∧ store.SharesOnlyBlobs ((slot.map Parameter.value).getD .null) field
      ∧ leaf ∈ field.leaves := by
  obtain ⟨fields, rfl, each⟩ := fieldwise_of_draft done
  clear done
  rw [Draft.leaves] at member
  induction each with
  | nil => cases member
  | @cons name slot field rest others writing _ inductionHypothesis =>
      rcases List.mem_append.1 member with here | later
      · exact ⟨slot, field, List.mem_cons_self,
          sharesOnlyBlobs_of_slotDraft copies wellKeyed writing, here⟩
      · obtain ⟨slot, field, listed, shares, found⟩ := inductionHypothesis later
        exact ⟨slot, field, List.mem_cons_of_mem _ listed, shares, found⟩

theorem onlyBlobs_of_draft : store.OnlyBlobs written.leaves := by
  intro ref member
  obtain ⟨slot, field, _, shares, found⟩ := mem_leaves_of_draft copies wellKeyed done member
  exact shares.blobs ref found

theorem within_of_draft (closed : store.Closed mine)
    (bound : ∀ parameter, some parameter ∈ parameters.map Prod.snd → parameter.value.Within mine) :
    ∀ leaf ∈ written.leaves, leaf.Within mine := by
  intro leaf member
  obtain ⟨slot, field, listed, shares, found⟩ := mem_leaves_of_draft copies wellKeyed done member
  apply shares.within closed ?_ leaf found
  cases slot with
  | none => rintro ref ⟨⟩
  | some parameter => exact bound parameter listed

end Draft

/-- The names are built from nothing that was there before. -/
theorem within_leaves_texts (mine : Ref → Prop) (texts : List String) :
    ∀ leaf ∈ (Draft.array (texts.map Draft.text)).leaves, leaf.Within mine := by
  rw [Draft.leaves]
  induction texts with
  | nil =>
      intro leaf member
      cases member
  | cons text rest inductionHypothesis =>
      rw [List.map_cons, Draft.leavesOfItems, List.forall_mem_append]
      refine ⟨?_, inductionHypothesis⟩
      intro leaf member
      rw [List.mem_singleton.1 member]
      exact Value.within_text text

end Parameters

/-! ### Calls -/

/-- The values that an object gives access to by itself. -/
def Object.values : Object → List Value
  | .value plain => [plain]
  | .parameter bound => [bound.value]
  | _ => []

namespace Action

/-- The values that a call hands out. -/
def handedOut : Except Failure (Option Object) → List Value
  | .ok (some object) => object.values
  | _ => []

/-- How a call of a method of parameters can go: it reads them into new containers, or it does its
one operation, or it changes nothing that parameters consist of. -/
inductive ParametersCall (workspace : Workspace) (number : Nat) :
    Option Parameters.Operation → Except Failure (Option Object) × Workspace → Prop where
  | copies (draft : Draft)
      (read : (workspace.parametersOf number).draft workspace.writer workspace.store = .ok draft
        ∨ draft = .array ((workspace.parametersOf number).names.map Draft.text)) :
      ParametersCall workspace number none
        (.ok (some (.value (workspace.store.place draft).1)),
          { workspace with store := (workspace.store.place draft).2 })
  | operates (operation : Parameters.Operation) (nextIdentity : Identity) :
      ParametersCall workspace number (some operation)
        (.ok (some (.parameters number)),
          { workspace with
            parameters := workspace.parameters.setIfInBounds number
              (Table.put (workspace.parametersOf number) operation.1 operation.2)
            nextIdentity })
  | rests (result : Except Failure (Option Object)) (nextIdentity : Identity)
      (known : ∀ value ∈ handedOut result, (∀ ref, value ≠ .cell ref)
        ∨ ∃ name parameter, (workspace.parametersOf number).get? name = some parameter
          ∧ value = parameter.value) :
      ParametersCall workspace number none (result, { workspace with nextIdentity })

/-- The object for an engine is placed in new containers, unless a parameter cannot be written. -/
theorem run_parameterValues {workspace : Workspace} {parameters : Nat} {draft : Draft}
    (written : (workspace.parametersOf parameters).draft workspace.writer workspace.store =
      .ok draft) :
    (parameterValues parameters).run.run workspace =
      (.ok (workspace.store.place draft).1,
        { workspace with store := (workspace.store.place draft).2 }) := by
  rw [parameterValues, run_bind, run_get]
  dsimp only
  rw [run_bind, run_consult written]
  rfl

theorem run_parameterValues_of_error {workspace : Workspace} {parameters : Nat} {failure : Failure}
    (refused : (workspace.parametersOf parameters).draft workspace.writer workspace.store =
      .error failure) :
    (parameterValues parameters).run.run workspace = (.error failure, workspace) := by
  rw [parameterValues, run_bind, run_get]
  dsimp only
  rw [run_bind, run_consult_of_error refused]

/-- Every call goes one of these ways, with the operation of its method. -/
theorem parametersCall (workspace : Workspace) (number : Nat) (method : String)
    (arguments : List Object) :
    ParametersCall workspace number
      (Parameters.operation? workspace.nextIdentity method arguments)
      ((callParameters number method arguments).run.run workspace) := by
  have nothing : ∀ value ∈ handedOut (.ok none), (∀ ref, value ≠ .cell ref)
      ∨ ∃ name parameter, (workspace.parametersOf number).get? name = some parameter
        ∧ value = parameter.value := fun _ member => nomatch member
  rw [callParameters, run_bind, run_get]
  dsimp only
  split
  · rw [run_bind]
    cases written : (workspace.parametersOf number).draft workspace.writer workspace.store with
    | ok draft =>
        rw [run_parameterValues written]
        exact .copies draft (.inl written)
    | error failure =>
        rw [run_parameterValues_of_error written]
        exact .rests (.error failure) workspace.nextIdentity fun _ member => nomatch member
  · exact .copies _ (.inr rfl)
  · exact .rests (.ok (some (.value _))) workspace.nextIdentity
      (by simp [handedOut, Object.values])
  · next name =>
      cases found : (workspace.parametersOf number).get? name with
      | none =>
          exact .rests (.ok (some (.value .null))) workspace.nextIdentity
            (by simp [handedOut, Object.values])
      | some parameter =>
          apply ParametersCall.rests (.ok (some (.parameter parameter))) workspace.nextIdentity
          intro value member
          exact .inr ⟨name, parameter, found, List.mem_singleton.1 member⟩
  · exact .operates _ workspace.nextIdentity
  · next name given =>
      rw [Parameters.operation?_set_date]
      cases given.moment? with
      | none => exact .rests (.ok none) workspace.nextIdentity nothing
      | some moment =>
          have identified : newIdentity.run.run workspace = (.ok workspace.nextIdentity,
            { workspace with nextIdentity := workspace.nextIdentity + 1 }) := rfl
          dsimp only [Option.bind_some]
          rw [run_bind, identified]
          dsimp only
          cases Parameter.ofMoment workspace.nextIdentity moment with
          | error failure =>
              apply ParametersCall.rests (.error failure) (workspace.nextIdentity + 1)
              exact fun _ member => nomatch member
          | ok parameter => exact .operates (name, some parameter) (workspace.nextIdentity + 1)
  · next name value other =>
      have typed : Parameters.operation? workspace.nextIdentity method
          [.value (.text name), .value value] = (Parameters.declared? method).map fun type =>
            (name, some ⟨workspace.nextIdentity, value, type⟩) := by
        rw [Parameters.operation?]
        · exact fun same _ => other same
        · exact fun _ same _ => other same
      rw [typed, Parameters.ofMethod?_eq_declared?]
      cases Parameters.declared? method with
      | none => exact .rests (.ok none) workspace.nextIdentity nothing
      | some type => exact .operates (name, some ⟨workspace.nextIdentity, value, type⟩) _
  · next plain toJson names size get remove dated =>
      have idle : Parameters.operation? workspace.nextIdentity method arguments = none := by
        rw [Parameters.operation?] <;> try assumption
        · exact fun name same given => dated name _ same given
        · exact fun name moment same given => dated name _ same given
      rw [idle]
      exact .rests (.ok none) workspace.nextIdentity nothing

theorem call_to_json [Machine] (number : Nat) : call (.parameters number) "to_json" [] =
    get >>= fun _ => parameterValues number >>= giveValue := rfl

/-- A call that fails leaves all parameters as they are. -/
theorem parameters_callParameters_of_failed (workspace : Workspace) (number : Nat) (method : String)
    (arguments : List Object) {failure : Failure}
    (failed : ((callParameters number method arguments).run.run workspace).1 = .error failure) :
    ((callParameters number method arguments).run.run workspace).2.parameters =
      workspace.parameters := by
  have call := parametersCall workspace number method arguments
  generalize (callParameters number method arguments).run.run workspace = outcome at call failed ⊢
  generalize Parameters.operation? workspace.nextIdentity method arguments = operation? at call
  cases call with
  | copies | operates => cases failed
  | rests => rfl

theorem run_getParameter (workspace : Workspace) (number : Nat) (name : String) :
    (callParameters number "get" [.value (.text name)]).run.run workspace =
      (.ok (some ((((workspace.parametersOf number).get? name).map Object.parameter).getD
        (.value .null))), workspace) := by
  rw [callParameters, run_bind, run_get]
  simp only
  cases (workspace.parametersOf number).get? name <;> rfl

end Action

/-! ### Readings -/

namespace Workspace

variable [Machine]

/-- A call gives a draft, in new containers, and does nothing else. -/
def Gives (workspace : Workspace) (object : Object) (method : String) (arguments : List Object)
    (draft : Draft) : Prop :=
  (Action.call object method arguments).run.run workspace =
    (.ok (some (.value (workspace.store.place draft).1)),
      { workspace with store := (workspace.store.place draft).2 })

/-- The methods of parameters give what the operations on them left: each name once, in the order of
its first use, and for a name what the last operation on it bound, copied if it can be copied. A
call that fails changes nothing. -/
structure ShowsParameters (workspace : Workspace) (number : Nat)
    (operations : List Parameters.Operation) : Prop where
  names : workspace.Gives (.parameters number) "names" []
    (.array ((Parameters.namesOf operations).map Draft.text))
  get : ∀ name, (Action.call (.parameters number) "get" [.value (.text name)]).run.run workspace =
    (.ok (some (((Parameters.last operations name).map Object.parameter).getD (.value .null))),
      workspace)
  copying : ∀ fields, Parameters.Copies workspace.store operations fields →
    workspace.Gives (.parameters number) "to_json" [] (.object fields)
  toJson : ∀ written,
    Parameters.shown workspace.writer workspace.store operations = .ok written →
      workspace.Gives (.parameters number) "to_json" [] written
  refusing : ∀ failure,
    Parameters.shown workspace.writer workspace.store operations = .error failure →
      (Action.call (.parameters number) "to_json" []).run.run workspace = (.error failure, workspace)
  failing : ∀ method arguments failure,
    ((Action.call (.parameters number) method arguments).run.run workspace).1 = .error failure →
      ((Action.call (.parameters number) method arguments).run.run workspace).2.parameters =
        workspace.parameters

theorem gives_to_json {workspace : Workspace} {number : Nat}
    {operations : List Parameters.Operation} {written : Draft}
    (holds : workspace.parametersOf number = Table.ofEntries operations)
    (shown : Parameters.shown workspace.writer workspace.store operations = .ok written) :
    workspace.Gives (.parameters number) "to_json" [] written := by
  rw [← Parameters.draft_ofEntries, ← holds] at shown
  rw [Gives, Action.call_to_json, Action.run_bind, Action.run_get]
  dsimp only
  rw [Action.run_bind, Action.run_parameterValues shown]
  rfl

theorem showsParameters {workspace : Workspace} {number : Nat}
    {operations : List Parameters.Operation} (copies : workspace.writer.CopiesContainers)
    (holds : workspace.parametersOf number = Table.ofEntries operations) :
    workspace.ShowsParameters number operations where
  names := by
    rw [← Parameters.names_ofEntries, ← holds]
    rfl
  get := by
    intro name
    rw [← Parameters.get?_ofEntries, ← holds]
    exact Action.run_getParameter workspace number name
  copying := fun fields each => gives_to_json holds (Parameters.shown_of_copies copies each)
  toJson := fun written shown => gives_to_json holds shown
  refusing := by
    intro failure shown
    rw [← Parameters.draft_ofEntries, ← holds] at shown
    rw [Action.call_to_json, Action.run_bind, Action.run_get]
    dsimp only
    rw [Action.run_bind, Action.run_parameterValues_of_error shown]
  failing := by
    intro method arguments failure failed
    exact Action.parameters_callParameters_of_failed workspace number method arguments failed

end Workspace

end DocumentStore
