import DocumentStore.Heap.Draft
import DocumentStore.Calendar.Timestamp

/-!
Contract: the parameters of a query.

Owns: the named and typed values, the slots that removal leaves behind, and the
object that an engine receives.

Does not own: the writing of a parameter. The library that parameters are records of
does it, so what it makes of a value, and whether it can, is taken as given.
-/

set_option autoImplicit false

namespace DocumentStore

/-- The declared type of a parameter. -/
inductive ParameterType where
  | value
  | string
  | boolean
  | float
  | double
  | long
  | int
  | date
  deriving DecidableEq

/-- The written name of a type. -/
def ParameterType.name : ParameterType → String
  | value => "value"
  | string => "string"
  | boolean => "boolean"
  | float => "float"
  | double => "double"
  | long => "long"
  | int => "int"
  | date => "date"

/-- A value with its declared type. Two parameters that were bound separately are told apart by
their identities, however equal they are. -/
structure Parameter where
  identity : Identity
  value : Value
  type : ParameterType
  deriving DecidableEq

/-- A parameter that holds the timestamp of a moment, or null. -/
def Parameter.ofMoment (identity : Identity) (moment : Option Calendar.Moment) :
    Except Failure Parameter :=
  match moment with
  | none => .ok ⟨identity, .null, .date⟩
  | some moment =>
      match Calendar.Timestamp.write? moment with
      | some timestamp => .ok ⟨identity, .text timestamp, .date⟩
      | none => .error .outsideCalendar

/-- How a parameter is written for an engine: from its value in a store and the name of its type.
It can fail. -/
abbrev Parameter.Writer := Store → Value → String → Except Failure Draft

/-- The writer that copies a value. One that stands inside itself is refused. -/
def Parameter.Writer.copying : Parameter.Writer := fun store value type =>
  match (store.unfold value).copy? with
  | some copy => .ok (.object [("value", copy), ("type", .text type)])
  | none => .error .circularReference

/-- Parameters by name, in the order in which the names were first used. A removed parameter
keeps its place, unbound. -/
abbrev Parameters := Table String (Option Parameter)

namespace Parameters

/-- A name bound to a parameter. -/
def bind (parameters : Parameters) (name : String) (parameter : Parameter) : Parameters :=
  Table.put parameters name (some parameter)

/-- A parameter left unbound. -/
def unbind (parameters : Parameters) (name : String) : Parameters :=
  Table.put parameters name none

/-- The parameter of a name; none if it is unbound or unknown. -/
def get? (parameters : Parameters) (name : String) : Option Parameter :=
  (Table.value? parameters name).join

/-- The names, in the order of their first use. -/
def names (parameters : Parameters) : List String :=
  Table.keys parameters

section Written

variable (write : Parameter.Writer) (store : Store)

/-- What an engine receives for one name: the parameter as it is written, or null where it is
unbound. -/
def slotDraft : Option Parameter → Except Failure Draft
  | none => .ok (.value .null)
  | some parameter => write store parameter.value parameter.type.name

/-- The object an engine receives. The first parameter that cannot be written is the failure. -/
def draft (parameters : Parameters) : Except Failure Draft := do
  let fields ← parameters.mapM fun entry => do
    let slot ← slotDraft write store entry.2
    return (entry.1, slot)
  return .object fields

end Written

end Parameters

end DocumentStore
