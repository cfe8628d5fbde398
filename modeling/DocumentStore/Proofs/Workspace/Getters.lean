import DocumentStore.Heap.Lemmas
import DocumentStore.Proofs.Calendar.Timestamps
import DocumentStore.Proofs.Number.Overflow
import DocumentStore.Proofs.Workspace.Requests
import DocumentStore.Workspace.Methods

/-!
Contract: what the getters of a property give.

Owns: the values that suit a getter, the default for all others, and the values past what a getter
can work with.

Does not own: the setters, and how a value came to be in a bag.

Three readings do work on values without bounds: the double of an integer, the moment of a
timestamp, and the content of a blob. Each of them has values on which the getter fails, and these
are all.
-/

set_option autoImplicit false

namespace DocumentStore

/-! ### Values and getters -/

namespace Document

/-- The getters of a property. -/
def getters : List String :=
  ["contains", "get_value", "get_string", "get_boolean", "get_int", "get_long", "get_float",
    "get_double", "get_date", "get_blob", "get_array", "get_dictionary"]

/-- What a getter gives of a value that does not suit it. -/
def defaultOf : String → Value
  | "get_boolean" => .boolean false
  | "get_int" => .integer 0
  | "get_long" => .integer 0
  | "get_float" => .double (.zero false)
  | "get_double" => .double (.zero false)
  | _ => .null

end Document

/-- A number or a boolean, which counts as one. -/
def Value.IsNumeric (value : Value) : Prop :=
  (∃ truth, value = .boolean truth) ∨ (∃ integer, value = .integer integer)
    ∨ ∃ double, value = .double double

/-- Neither an infinity nor not-a-number. -/
def Value.IsDefinite (value : Value) : Prop :=
  ∀ double, value = .double double → ∃ finite, double = .finite finite

/-- A text that is a timestamp. -/
def Value.IsTimestamp (value : Value) : Prop :=
  ∃ text moment, value = .text text ∧ Calendar.Timestamp.readMoment text.toList = some moment

/-- The fault of as many zero bytes as a number says, if they are too many to be counted, to be
one byte string, or to be kept in the memory. -/
def ByteFault.ofCount? [Machine] (count : Int) : Option ByteFault :=
  if count < -(Tree.sizeLimit : Int) ∨ (Tree.sizeLimit : Int) ≤ count then some .countTooLarge
  else if (Tree.sizeLimit : Int) ≤ count + Tree.sizeOverhead then some .contentTooLarge
  else if (Machine.room : Int) < count then some .outOfMemory
  else none

namespace Store

variable [Machine] (store : Store) (value : Value)

/-- A blob, the description of one, or a tagged object with a content type and with a content. -/
def HoldsBlob : Prop :=
  (store.blob? value).isSome
    ∨ ∃ fields, store.object? value = some fields
      ∧ ((Table.value? fields "content_type").isSome
        ∨ ∃ data content, store.taggedBlob? fields = some data
          ∧ (Table.value? data "contentType").isSome
          ∧ Tree.payload ((Table.value? data "data").map store.unfold) = .ok content)

/-- The value can be coerced to what a getter gives. -/
def Suits : String → Prop
  | "get_string" => ∃ text, value = .text text
  | "get_boolean" => value ≠ .null
  | "get_int" => value.IsNumeric ∧ value.IsDefinite
  | "get_long" => value.IsNumeric
  | "get_float" => value.IsNumeric
  | "get_double" => value.IsNumeric
  | "get_date" => value.IsTimestamp
  | "get_blob" => store.HoldsBlob value
  | "get_array" => (store.array? value).isSome
  | "get_dictionary" => (store.object? value).isSome
  | _ => True

/-- An integer past the greatest double. -/
def ExceedsDoubles (failure : Failure) : Prop :=
  ∃ integer, value = .integer integer ∧ Double.leastOverflow ≤ integer.natAbs
    ∧ failure = .integerTooLarge

/-- A timestamp that leaves the calendar in UTC. -/
def ExceedsCalendar (failure : Failure) : Prop :=
  ∃ text moment, value = .text text ∧ Calendar.Timestamp.readMoment text.toList = some moment
    ∧ ¬Calendar.InCalendar moment.instant ∧ failure = .outsideCalendar

/-- A tagged object with a content type that has a number of bytes for its content, and too great
a number. -/
def ExceedsMemory (failure : Failure) : Prop :=
  ∃ fields data count fault, store.object? value = some fields
    ∧ Table.value? fields "content_type" = none
    ∧ store.taggedBlob? fields = some data
    ∧ (Table.value? data "contentType").isSome
    ∧ Table.value? data "data" = some (.integer count)
    ∧ ByteFault.ofCount? count = some fault ∧ failure = .bytes fault

/-- The value is past what a getter can work with, and this is how the getter fails. -/
def Exceeds (failure : Failure) : String → Prop
  | "get_float" => ExceedsDoubles value failure
  | "get_double" => ExceedsDoubles value failure
  | "get_date" => ExceedsCalendar value failure
  | "get_blob" => store.ExceedsMemory value failure
  | _ => False

/-- How a getter goes: it fails on the values past what it can work with, and it gives a value of
all others, which is its default where a value does not suit it. -/
structure Explains (method : String) (outcome : Except Failure (Option Object)) : Prop where
  fails_iff : ∀ failure, outcome = .error failure ↔ store.Exceeds value failure method
  gives : (∀ failure, ¬store.Exceeds value failure method) → ∃ given,
    outcome = .ok (some (.value given))
      ∧ (¬store.Suits value method → given = Document.defaultOf method)

theorem Explains.of_ok {store : Store} {value : Value} {method : String} {given : Value}
    (fits : ∀ failure, ¬store.Exceeds value failure method)
    (default : ¬store.Suits value method → given = Document.defaultOf method) :
    store.Explains value method (.ok (some (.value given))) where
  fails_iff := fun failure => ⟨fun failed => (by cases failed), fun exceeds => absurd exceeds (fits failure)⟩
  gives := fun _ => ⟨given, rfl, default⟩

/-- A getter that gives what it makes of a value, or fails as the making does. -/
theorem Explains.of_map {store : Store} {value : Value} {method : String} {α : Type}
    {made : Except Failure α} {form : α → Value}
    (fails_iff : ∀ failure, made = .error failure ↔ store.Exceeds value failure method)
    (default : ∀ result, made = .ok result → ¬store.Suits value method →
      form result = Document.defaultOf method) :
    store.Explains value method (made.map fun result => some (.value (form result))) := by
  cases made with
  | ok result =>
      refine .of_ok (fun failure exceeds => ?_) (default result rfl)
      cases (fails_iff failure).2 exceeds
  | error cause =>
      refine ⟨fun failure => ?_, fun fits => absurd ((fails_iff cause).1 rfl) (fits cause)⟩
      rw [← fails_iff failure]
      exact ⟨fun failed => (by cases failed; rfl), fun failed => (by cases failed; rfl)⟩

end Store

/-! ### Doubles and moments -/

namespace Value

variable {value : Value} {failure : Failure}

theorem asDouble_eq_error_iff : value.asDouble = .error failure ↔ Store.ExceedsDoubles value failure := by
  unfold Store.ExceedsDoubles
  constructor
  · intro failed
    cases value with
    | integer integer =>
        rw [asDouble] at failed
        cases rounded : Double.ofInt? integer with
        | some double =>
            rw [rounded] at failed
            cases failed
        | none =>
            rw [rounded] at failed
            cases failed
            exact ⟨integer, rfl, Double.ofInt?_eq_none_iff.1 rounded, rfl⟩
    | _ => cases failed
  · rintro ⟨integer, rfl, great, rfl⟩
    rw [asDouble, Double.ofInt?_eq_none_iff.2 great]

theorem asDouble_of_not_isNumeric (other : ¬value.IsNumeric) : value.asDouble = .ok (.zero false) := by
  cases value with
  | boolean truth => exact absurd (.inl ⟨truth, rfl⟩) other
  | integer integer => exact absurd (.inr (.inl ⟨integer, rfl⟩)) other
  | double double => exact absurd (.inr (.inr ⟨double, rfl⟩)) other
  | _ => rfl

theorem asText_of_not_text (other : ¬∃ text, value = .text text) : value.asText = none := by
  cases value with
  | text text => exact absurd ⟨text, rfl⟩ other
  | _ => rfl

theorem asInteger_of_not_definite (other : ¬(value.IsNumeric ∧ value.IsDefinite)) :
    value.asInteger = 0 := by
  cases value with
  | boolean truth => exact absurd ⟨.inl ⟨truth, rfl⟩, fun _ same => nomatch same⟩ other
  | integer integer => exact absurd ⟨.inr (.inl ⟨integer, rfl⟩), fun _ same => nomatch same⟩ other
  | double double =>
      cases double with
      | finite finite =>
          refine absurd ⟨.inr (.inr ⟨_, rfl⟩), fun double same => ?_⟩ other
          cases same
          exact ⟨finite, rfl⟩
      | _ => rfl
  | _ => rfl

theorem asNumber_of_not_isNumeric (other : ¬value.IsNumeric) : value.asNumber = .integer 0 := by
  cases value with
  | boolean truth => exact absurd (.inl ⟨truth, rfl⟩) other
  | integer integer => exact absurd (.inr (.inl ⟨integer, rfl⟩)) other
  | double double => exact absurd (.inr (.inr ⟨double, rfl⟩)) other
  | _ => rfl

theorem asMoment_eq_error_iff : value.asMoment = .error failure ↔ Store.ExceedsCalendar value failure := by
  unfold Store.ExceedsCalendar
  constructor
  · intro failed
    cases value with
    | text text =>
        rw [asMoment, Calendar.Timestamp.read] at failed
        cases read : Calendar.Timestamp.readMoment text.toList with
        | none =>
            rw [read] at failed
            cases failed
        | some moment =>
            rw [read] at failed
            dsimp only at failed
            cases inUtc : moment.utc? with
            | some form =>
                rw [inUtc] at failed
                cases failed
            | none =>
                rw [inUtc] at failed
                cases failed
                exact ⟨text, moment, rfl, read, Calendar.Moment.utc?_eq_none_iff.1 inUtc, rfl⟩
    | _ => cases failed
  · rintro ⟨text, moment, rfl, read, outside, rfl⟩
    rw [asMoment, Calendar.Timestamp.read, read]
    dsimp only
    rw [Calendar.Moment.utc?_eq_none_iff.2 outside]

theorem asMoment_of_not_isTimestamp (other : ¬value.IsTimestamp) : value.asMoment = .ok none := by
  cases value with
  | text text =>
      rw [asMoment, Calendar.Timestamp.read]
      cases read : Calendar.Timestamp.readMoment text.toList with
      | none => rfl
      | some moment => exact absurd ⟨text, moment, rfl, read⟩ other
  | _ => rfl

end Value

/-! ### Blobs -/

theorem ByteFault.isAboutSize_of_ofCount? [Machine] {count : Int} {fault : ByteFault}
    (found : ofCount? count = some fault) : fault.isAboutSize = true := by
  unfold ofCount? at found
  split at found
  · cases found
    rfl
  · split at found
    · cases found
      rfl
    · split at found
      · cases found
        rfl
      · cases found

namespace Tree

/-- A number of bytes that is not too great is negative or has its bytes. -/
theorem toBytes_integer [Machine] (count : Int) : (Tree.integer count).toBytes =
    match ByteFault.ofCount? count with
    | some fault => .error fault
    | none => if count < 0 then .error .negativeCount else .ok (List.replicate count.toNat 0) := by
  have limit : (sizeLimit : Int) = 9223372036854775808 := rfl
  have overhead : (sizeOverhead : Int) = 33 := rfl
  simp only [toBytes, ByteFault.ofCount?, limit, overhead]
  by_cases uncountable : count < -9223372036854775808 ∨ (9223372036854775808 : Int) ≤ count
  · rw [if_pos uncountable, if_pos uncountable]
  · rw [if_neg uncountable, if_neg uncountable]
    by_cases negative : count < 0
    · rw [if_pos negative, if_neg (by omega), if_neg (by omega)]
      exact (if_pos negative).symm
    · rw [if_neg negative]
      by_cases long : (9223372036854775808 : Int) ≤ count + 33
      · rw [if_pos long, if_pos long]
      · rw [if_neg long, if_neg long]
        by_cases great : (Machine.room : Int) < count
        · rw [if_pos great, if_pos great]
        · rw [if_neg great, if_neg great]
          exact (if_neg negative).symm

theorem isAboutSize_of_byte {item : Tree} {fault : ByteFault} (failed : item.byte = .error fault) :
    fault.isAboutSize = false := by
  cases item with
  | integer value =>
      rw [byte] at failed
      split at failed
      · cases failed
      · cases failed
        rfl
  | boolean value => cases failed
  | _ =>
      cases failed
      rfl

theorem isAboutSize_of_bytes {items : List Tree} {fault : ByteFault}
    (failed : items.mapM byte = .error fault) : fault.isAboutSize = false := by
  induction items with
  | nil => cases failed
  | cons item rest inductionHypothesis =>
      rw [List.mapM_cons] at failed
      cases first : item.byte with
      | error cause =>
          rw [first] at failed
          cases failed
          exact isAboutSize_of_byte first
      | ok byte =>
          rw [first] at failed
          cases others : rest.mapM Tree.byte with
          | error cause =>
              rw [others] at failed
              cases failed
              exact inductionHypothesis others
          | ok bytes =>
              rw [others] at failed
              cases failed

/-- Of the values that stand for no bytes, only numbers are at fault for a size. -/
theorem toBytes_eq_error_iff [Machine] {value : Tree} {fault : ByteFault} :
    (value.toBytes = .error fault ∧ fault.isAboutSize = true) ↔
      ∃ count, value = .integer count ∧ ByteFault.ofCount? count = some fault := by
  constructor
  · rintro ⟨failed, aboutSize⟩
    cases value with
    | integer count =>
        rw [toBytes_integer] at failed
        split at failed
        · next limits =>
            cases failed
            exact ⟨count, rfl, limits⟩
        · split at failed
          · cases failed
            cases aboutSize
          · cases failed
    | array items =>
        rw [isAboutSize_of_bytes failed] at aboutSize
        cases aboutSize
    | object fields =>
        cases fields <;> cases failed
        cases aboutSize
    | bytes content => cases failed
    | boolean truth => cases failed
    | _ =>
        cases failed
        cases aboutSize
  · rintro ⟨count, rfl, limits⟩
    rw [toBytes_integer, limits]
    exact ⟨rfl, ByteFault.isAboutSize_of_ofCount? limits⟩

/-- A content that is there and does not count as absent is at fault as a value. -/
theorem payload_eq_error_iff [Machine] {value : Option Tree} {fault : ByteFault} :
    (payload value = .error fault ∧ fault.isAboutSize = true) ↔
      ∃ count, value = some (.integer count) ∧ ByteFault.ofCount? count = some fault := by
  cases value with
  | none => simp [payload]
  | some value =>
      simp only [Option.some.injEq, ← toBytes_eq_error_iff, payload]
      split
      · rfl
      · next absent =>
          refine ⟨fun failed => (by cases failed.1), fun failed => absurd ?_ absent⟩
          obtain ⟨count, rfl, limits⟩ := toBytes_eq_error_iff.1 failed
          rw [isTruthy, bne_iff_ne]
          rintro rfl
          cases limits

end Tree

namespace Store

variable {store : Store} {value : Value} {failure : Failure}

/-- An integer in a tree is an integer in the store. -/
theorem unfoldWithin_eq_integer_iff {steps : Nat} {path : List Ref} {count : Int} :
    store.unfoldWithin true steps path value = .integer count ↔ value = .integer count := by
  cases value with
  | cell ref =>
      refine ⟨fun same => ?_, fun same => by cases same⟩
      cases steps with
      | zero => cases same
      | succ steps =>
          rw [unfoldWithin] at same
          split at same
          · cases same
          · split at same <;> cases same
  | integer other => cases steps <;> rw [unfoldWithin, Tree.integer.injEq, Value.integer.injEq]
  | _ =>
      refine ⟨fun same => ?_, fun same => by cases same⟩
      cases steps <;> cases same

variable [Machine]

/-- A dictionary form fails for its size exactly if it has a content type and too great a number
for its content. -/
theorem blobOfDictionary_eq_error_iff {data : Table String Value} {fault : ByteFault} :
    (store.blobOfDictionary data = .error (.bytes fault) ∧ fault.isAboutSize = true) ↔
      (Table.value? data "contentType").isSome
        ∧ ∃ count, Table.value? data "data" = some (.integer count)
          ∧ ByteFault.ofCount? count = some fault := by
  cases typed : Table.value? data "contentType" with
  | none => simp [blobOfDictionary, typed]
  | some contentType =>
      have failsWith : store.blobOfDictionary data = .error (.bytes fault) ↔
          Tree.payload ((Table.value? data "data").map store.unfold) = .error fault := by
        cases content : Tree.payload ((Table.value? data "data").map store.unfold) <;>
          simp [blobOfDictionary, typed, content]
      rw [failsWith, Tree.payload_eq_error_iff]
      simp only [Option.map_eq_some_iff, unfold, unfoldWithin_eq_integer_iff, Option.isSome_some,
        true_and, exists_eq_right]

/-- A dictionary form gives a blob only if it has a content type and a content. -/
theorem exists_content_of_blobOfDictionary {data : Table String Value} {blob : Blob}
    (given : store.blobOfDictionary data = .ok blob) :
    (Table.value? data "contentType").isSome
      ∧ ∃ content, Tree.payload ((Table.value? data "data").map store.unfold) = .ok content := by
  cases typed : Table.value? data "contentType" with
  | none => simp [blobOfDictionary, typed] at given
  | some contentType =>
      cases content : Tree.payload ((Table.value? data "data").map store.unfold) with
      | ok bytes => exact ⟨rfl, bytes, rfl⟩
      | error fault => simp [blobOfDictionary, typed, content] at given

/-- The fields of an object fail to give a blob exactly if a tagged form in them fails for its
size. -/
theorem blobOfFields_eq_error_iff {fields : Table String Value} :
    store.blobOfFields fields = .error failure ↔ ∃ data fault,
      Table.value? fields "content_type" = none
        ∧ store.taggedBlob? fields = some data
        ∧ (store.blobOfDictionary data = .error (.bytes fault) ∧ fault.isAboutSize = true)
        ∧ failure = .bytes fault := by
  constructor
  · intro failed
    rw [blobOfFields] at failed
    split at failed
    · cases failed
    · next described =>
        split at failed
        · cases failed
        · next data tagged =>
            split at failed
            · cases failed
            · next fault made =>
                split at failed
                · next aboutSize =>
                    cases failed
                    exact ⟨data, fault, described, tagged, ⟨made, aboutSize⟩, rfl⟩
                · cases failed
            · cases failed
  · rintro ⟨data, fault, described, tagged, ⟨made, aboutSize⟩, rfl⟩
    simp only [blobOfFields, described, tagged, made, aboutSize, if_true]

/-- The fields of an object that give a blob describe one, or a tagged form in them gives it. -/
theorem described_or_tagged_of_blobOfFields {fields : Table String Value} {blob : Blob}
    (given : store.blobOfFields fields = .ok (some blob)) :
    (Table.value? fields "content_type").isSome
      ∨ ∃ data, store.taggedBlob? fields = some data ∧ store.blobOfDictionary data = .ok blob := by
  rw [blobOfFields] at given
  split at given
  · next described => exact .inl (by rw [described]; rfl)
  · split at given
    · cases given
    · next data tagged =>
        split at given
        · next made =>
            cases given
            exact .inr ⟨data, tagged, made⟩
        · split at given <;> cases given
        · cases given

theorem asBlob_eq_error_iff : store.asBlob value = .error failure ↔ store.ExceedsMemory value failure := by
  have ofObject : store.asBlob value = .error failure ↔
      ∃ fields, store.object? value = some fields ∧ store.blobOfFields fields = .error failure := by
    cases found : store.object? value with
    | some fields => simp [asBlob, blob?_eq_none_of_object? found, found]
    | none => cases held : store.blob? value <;> simp [asBlob, held, found]
  rw [ofObject, ExceedsMemory]
  simp only [blobOfFields_eq_error_iff, blobOfDictionary_eq_error_iff]
  constructor
  · rintro ⟨fields, found, data, fault, described, tagged, ⟨typed, count, counted, limits⟩, rfl⟩
    exact ⟨fields, data, count, fault, found, described, tagged, typed, counted, limits, rfl⟩
  · rintro ⟨fields, data, count, fault, found, described, tagged, typed, counted, limits, rfl⟩
    exact ⟨fields, found, data, fault, described, tagged, ⟨typed, count, counted, limits⟩, rfl⟩

/-- A value that gives a blob holds one. -/
theorem holdsBlob_of_asBlob {blob : Blob} (given : store.asBlob value = .ok (some blob)) :
    store.HoldsBlob value := by
  rw [asBlob] at given
  split at given
  · next held => exact .inl (by rw [held]; rfl)
  · next fields _ found =>
      refine .inr ⟨fields, found, ?_⟩
      rcases described_or_tagged_of_blobOfFields given with described | ⟨data, tagged, made⟩
      · exact .inl described
      · obtain ⟨typed, content, paid⟩ := exists_content_of_blobOfDictionary made
        exact .inr ⟨data, content, tagged, typed, paid⟩
  · cases given

/-- A reference to the blob of a value fails as the blob does. -/
theorem referToBlob_eq_error_iff :
    store.referToBlob value = .error failure ↔ store.ExceedsMemory value failure := by
  rw [referToBlob]
  cases held : store.blob? value with
  | some blob =>
      refine ⟨fun failed => (by cases failed), fun exceeds => ?_⟩
      obtain ⟨fields, _, _, _, found, _⟩ := exceeds
      rw [blob?_eq_none_of_object? found] at held
      cases held
  | none =>
      rw [← asBlob_eq_error_iff]
      cases store.asBlob value with
      | error cause => exact ⟨fun failed => (by cases failed; rfl), fun failed => (by cases failed; rfl)⟩
      | ok blob =>
          refine ⟨fun failed => ?_, fun failed => by cases failed⟩
          cases blob <;> cases failed

/-- A reference to a blob is given only of a value that holds one. -/
theorem referToBlob_of_not_holdsBlob (other : ¬store.HoldsBlob value) {given : Value × Store}
    (referred : store.referToBlob value = .ok given) : given.1 = .null := by
  rw [referToBlob] at referred
  split at referred
  · next held => exact absurd (.inl (by rw [held]; rfl)) other
  · cases found : store.asBlob value with
    | error failure =>
        rw [found] at referred
        cases referred
    | ok blob =>
        cases blob with
        | none =>
            rw [found] at referred
            cases referred
            rfl
        | some blob => exact absurd (holdsBlob_of_asBlob found) other

end Store

/-! ### Getters -/

namespace Action

variable {workspace : Workspace} {number : Nat} {key : String}

/-- A getter that calculates gives what it calculates, or fails as the calculation does. -/
theorem run_giveValue_consult {α : Type} (made : Except Failure α) (form : α → Value) :
    ((do giveValue (← consult fun _ => made.map form) : Action (Option Object)).run.run workspace).1 =
      made.map fun result => some (.value (form result)) := by
  cases made <;> rfl

theorem explains_double [Machine] {method : String}
    (listed : method = "get_float" ∨ method = "get_double") :
    workspace.store.Explains ((workspace.document number).property workspace.store key) method
      ((callDocument number method [.value (.text key)]).run.run workspace).1 := by
  generalize reached : (workspace.document number).property workspace.store key = value
  have calculated : ((callDocument number method [.value (.text key)]).run.run workspace).1 =
      value.asDouble.map fun double => some (.value (.double double)) := by
    rw [← reached, ← run_giveValue_consult]
    rcases listed with rfl | rfl <;> rfl
  rw [calculated]
  refine .of_map (fun failure => ?_) fun double made other => ?_
  · rw [Value.asDouble_eq_error_iff]
    rcases listed with rfl | rfl <;> rfl
  · have zero : value.asDouble = .ok (.zero false) := by
      refine Value.asDouble_of_not_isNumeric ?_
      rcases listed with rfl | rfl <;> exact other
    rw [made] at zero
    cases zero
    rcases listed with rfl | rfl <;> rfl

/-- The date of a property is the moment that its text names. -/
theorem run_getDate [Machine] (workspace : Workspace) (number : Nat) (key : String) :
    ((callDocument number "get_date" [.value (.text key)]).run.run workspace).1 =
      ((workspace.document number).property workspace.store key).asMoment.map fun moment =>
        some (.value ((moment.map Value.moment).getD .null)) := by
  rw [← run_giveValue_consult]
  rfl

theorem explains_date [Machine] :
    workspace.store.Explains ((workspace.document number).property workspace.store key) "get_date"
      ((callDocument number "get_date" [.value (.text key)]).run.run workspace).1 := by
  rw [run_getDate]
  refine .of_map (fun _ => Value.asMoment_eq_error_iff) fun moment made other => ?_
  rw [Value.asMoment_of_not_isTimestamp other] at made
  cases made
  rfl

theorem explains_blob [Machine] :
    workspace.store.Explains ((workspace.document number).property workspace.store key) "get_blob"
      ((callDocument number "get_blob" [.value (.text key)]).run.run workspace).1 := by
  generalize reached : (workspace.document number).property workspace.store key = value
  have calculated : ((callDocument number "get_blob" [.value (.text key)]).run.run workspace).1 =
      (workspace.store.referToBlob value).map fun given => some (.value given.1) := by
    rw [← reached]
    change ((do giveValue (← blobOf number key) : Action (Option Object)).run.run workspace).1 = _
    rw [run_bind, blobOf, run_bind, consultDocument, run_bind, run_get]
    dsimp only
    cases workspace.store.referToBlob ((workspace.document number).property workspace.store key) <;> rfl
  rw [calculated]
  exact .of_map (fun _ => Store.referToBlob_eq_error_iff) fun given made other =>
    Store.referToBlob_of_not_holdsBlob other made

/-- Every getter fails exactly on the values past what it can work with, and gives a value of all
others: its default of those that do not suit it. -/
theorem getter_explained [Machine] (workspace : Workspace) (number : Nat) (key : String)
    {method : String} (getter : method ∈ Document.getters) :
    workspace.store.Explains ((workspace.document number).property workspace.store key) method
      ((callDocument number method [.value (.text key)]).run.run workspace).1 := by
  simp only [Document.getters, List.mem_cons, List.not_mem_nil, or_false] at getter
  rcases getter with rfl | rfl | rfl | rfl | rfl | rfl | rfl | rfl | rfl | rfl | rfl | rfl
  · exact .of_ok (fun _ => id) fun other => absurd trivial other
  · exact .of_ok (fun _ => id) fun other => absurd trivial other
  · refine .of_ok (fun _ => id) fun other => ?_
    rw [Value.asText_of_not_text other]
    rfl
  · refine .of_ok (fun _ => id) fun other => ?_
    rw [Classical.not_not.1 other]
    rfl
  · exact .of_ok (fun _ => id) fun other =>
      congrArg Value.integer (Value.asInteger_of_not_definite other)
  · exact .of_ok (fun _ => id) fun other =>
      congrArg Number.value (Value.asNumber_of_not_isNumeric other)
  · exact explains_double (.inl rfl)
  · exact explains_double (.inr rfl)
  · exact explains_date
  · exact explains_blob
  · exact .of_ok (fun _ => id) fun other => if_neg other
  · exact .of_ok (fun _ => id) fun other => if_neg other

/-- A document with a value past each of the three limits: the least integer without a double, an
hour that begins before the calendar does, and more bytes than can be counted. -/
def extremes : Workspace :=
  { Workspace.start [] with
    store := ⟨#[
      .object [("contentType", .text "text/plain"), ("data", .integer 1000000000000000000000)],
      .object [("_type", .text "blob"), ("data", .cell 0)],
      .object [("great", .integer Double.leastOverflow), ("early", .text "0001-01-01T00:00:00+01:00"),
        ("long", .cell 1)]]⟩
    documents := #[⟨false, "extremes", 0, none, 2, none⟩] }

theorem getters_fail_on_extremes :
    ((callDocument 0 "get_double" [.value (.text "great")]).run.run extremes).1 = .error .integerTooLarge
      ∧ ((callDocument 0 "get_date" [.value (.text "early")]).run.run extremes).1 =
        .error .outsideCalendar
      ∧ ((callDocument 0 "get_blob" [.value (.text "long")]).run.run extremes).1 =
        .error (.bytes .countTooLarge) := by
  refine ⟨?_, ?_, ?_⟩
  · exact ((explains_double (.inr rfl)).fails_iff _).2 ⟨_, rfl, Nat.le_refl _, rfl⟩
  · exact (explains_date.fails_iff _).2
      ⟨_, ⟨⟨1, 1, 1, by decide⟩, ⟨0, 0, 0, 0, by decide⟩, some ⟨3600000000, by decide⟩⟩, rfl,
        by decide +kernel, by decide +kernel, rfl⟩
  · exact (explains_blob.fails_iff _).2 ⟨_, _, _, _, rfl, rfl, rfl, rfl, rfl, rfl, rfl⟩

/-- A text has no double, and it is no reason to fail. -/
theorem text_gives_zero : "get_double" ∈ Document.getters
    ∧ ((callDocument 0 "get_double" [.value (.text "early")]).run.run extremes).1 =
      .ok (some (.value (.double (.zero false)))) := by
  have getter : "get_double" ∈ Document.getters := by decide
  refine ⟨getter, ?_⟩
  have explained := getter_explained extremes 0 "early" getter
  obtain ⟨given, gave, default⟩ := explained.gives fun failure exceeds => by
    obtain ⟨integer, same, _⟩ := exceeds
    cases same
  rw [gave, default ?_]
  · rfl
  · rintro (⟨truth, same⟩ | ⟨integer, same⟩ | ⟨double, same⟩) <;> cases same

end Action

end DocumentStore
