import DocumentStore.Proofs.Engine.Failures
import DocumentStore.Proofs.Heap.Circles
import DocumentStore.Proofs.Heap.Plain
import DocumentStore.Document

/-!
Contract: a bag in a circle is refused wherever it is written, and no other bag is taken for one.

Owns: the values that only a circle can keep from being written, the outcome of writing them, and the
copies of those that lie in no circle.

Does not own: values that have no JSON text for another reason.

Writing meets a circle exactly where unfolding marks that a path comes back, so it is refused if
unfolding does not come to an end by itself. Containers that several positions share are no circle,
and each position gets a container of its own in the copy.
-/

set_option autoImplicit false

namespace DocumentStore

namespace Store

variable {store : Store} {value inner : Value} {blobs : Bool}

/-! ### Values that are written unless they are circular -/

/-- A value that has a JSON text of its own, or is an array or an object without repeated keys. -/
def IsData (store : Store) : Value → Prop
  | .bytes _ => False
  | .moment _ => False
  | .integer value => digitCount value ≤ digitLimit
  | .cell ref =>
      (∃ items, store.read? ref = some (.array items))
        ∨ ∃ fields, store.read? ref = some (.object fields) ∧ Table.Distinct fields
  | _ => True

/-- Everything that a value reaches is data. -/
def Serializable (store : Store) (value : Value) : Prop :=
  ∀ inner, store.Reaches [value] inner → store.IsData inner

theorem Serializable.inside {ref : Ref} {cell : Cell} (serializable : store.Serializable (.cell ref))
    (read : store.read? ref = some cell) (member : inner ∈ cell.values) :
    store.Serializable inner :=
  fun other reaches => serializable other (.ofInside read member reaches)

theorem Serializable.intact (serializable : store.Serializable value) : store.Intact value := by
  intro ref reaches
  rcases serializable _ reaches with ⟨items, read⟩ | ⟨fields, read, _⟩
  · exact lt_size_of_read? read
  · exact lt_size_of_read? read

/-- In a store whose containers hold data only, all data is serializable. -/
theorem serializable_of_forall (isData : store.IsData value)
    (each : ∀ ref cell, store.read? ref = some cell → ∀ inner ∈ cell.values, store.IsData inner) :
    store.Serializable value := by
  intro other reaches
  cases reaches with
  | kept member => rwa [List.mem_singleton.1 member]
  | inside _ read member => exact each _ _ read _ member

/-! ### Values in no circle -/

theorem exists_plainItems {items : List Value}
    (each : ∀ item ∈ items, ∃ json, store.Plain item json) : ∃ jsons, store.PlainItems items jsons := by
  induction items with
  | nil => exact ⟨[], .nil⟩
  | cons item rest inductionHypothesis =>
      obtain ⟨⟨json, first⟩, others⟩ := List.forall_mem_cons.1 each
      obtain ⟨jsons, remaining⟩ := inductionHypothesis others
      exact ⟨json :: jsons, .cons first remaining⟩

theorem exists_plainFields {fields : List (String × Value)}
    (each : ∀ field ∈ fields, ∃ json, store.Plain field.2 json) :
    ∃ jsons, store.PlainFields fields jsons := by
  induction fields with
  | nil => exact ⟨[], .nil⟩
  | cons field rest inductionHypothesis =>
      obtain ⟨⟨json, first⟩, others⟩ := List.forall_mem_cons.1 each
      obtain ⟨jsons, remaining⟩ := inductionHypothesis others
      exact ⟨(field.1, json) :: jsons, .cons first remaining⟩

/-- Data from which every path ends is a JSON tree. -/
theorem Founded.exists_plain (founded : store.Founded value)
    (serializable : store.Serializable value) : ∃ json, store.Plain value json := by
  have isData := serializable value (.self store value)
  induction founded with
  | @scalar value scalar =>
      cases value with
      | null => exact ⟨_, .null⟩
      | boolean value => exact ⟨_, .boolean value⟩
      | integer value => exact ⟨_, .integer isData⟩
      | double value => exact ⟨_, .double value⟩
      | text value => exact ⟨_, .text value⟩
      | bytes | moment => exact isData.elim
      | cell ref => exact absurd rfl (scalar ref)
  | @container ref cell read _ inductionHypothesis =>
      have each : ∀ inner ∈ cell.values, ∃ json, store.Plain inner json := fun inner member =>
        have within := serializable.inside read member
        inductionHypothesis inner member within (within inner (.self store inner))
      rcases isData with ⟨items, readItems⟩ | ⟨fields, readFields, distinct⟩
      · cases read.symm.trans readItems
        obtain ⟨jsons, plain⟩ := exists_plainItems each
        exact ⟨_, .array read plain⟩
      · cases read.symm.trans readFields
        obtain ⟨jsons, plain⟩ := exists_plainFields fun field member =>
          each field.2 (List.mem_map_of_mem member)
        exact ⟨_, .object read distinct plain⟩

/-! ### Values in circles -/

/-- A conversion meets a circle, or succeeds and something holds. -/
def MeetsCircleOr {α : Type} (fine : Prop) (result : Except Failure α) : Prop :=
  result = .error .circularReference ∨ fine ∧ ∃ made, result = .ok made

theorem MeetsCircleOr.bind {α β : Type} {fine good : Prop} {first : Except Failure α}
    {others : α → Except Failure β} (meets : MeetsCircleOr fine first)
    (continues : ∀ made, MeetsCircleOr good (others made)) :
    MeetsCircleOr (fine ∧ good) (first >>= others) := by
  rcases meets with failed | ⟨isFine, made, done⟩
  · rw [failed]
    exact .inl rfl
  · rw [done]
    rcases continues made with failed | ⟨isGood, final, finished⟩
    · exact .inl failed
    · exact .inr ⟨⟨isFine, isGood⟩, final, finished⟩

theorem MeetsCircleOr.map {α β : Type} {fine good : Prop} {first : Except Failure α} {form : α → β}
    (meets : MeetsCircleOr fine first) (implies : fine → good) :
    MeetsCircleOr good (first >>= fun made => .ok (form made)) := by
  rcases meets with failed | ⟨isFine, made, done⟩
  · rw [failed]
    exact .inl rfl
  · rw [done]
    exact .inr ⟨implies isFine, form made, rfl⟩

theorem meetsCircleOr_itemsToJson {items : List Value} {tree : Value → Tree} {fine : Value → Prop}
    (each : ∀ item ∈ items, MeetsCircleOr (fine item) ((tree item).toJson blobs)) :
    MeetsCircleOr (∀ item ∈ items, fine item) (Tree.itemsToJson blobs (items.map tree)) := by
  induction items with
  | nil => exact .inr ⟨by simp, [], rfl⟩
  | cons item rest inductionHypothesis =>
      obtain ⟨first, others⟩ := List.forall_mem_cons.1 each
      rw [List.forall_mem_cons]
      exact first.bind fun json => (inductionHypothesis others).map id

theorem meetsCircleOr_fieldsToJson {fields : List (String × Value)} {tree : Value → Tree}
    {fine : Value → Prop}
    (each : ∀ field ∈ fields, MeetsCircleOr (fine field.2) ((tree field.2).toJson blobs)) :
    MeetsCircleOr (∀ field ∈ fields, fine field.2)
      (Tree.fieldsToJson blobs (fields.map fun field => (field.1, tree field.2))) := by
  induction fields with
  | nil => exact .inr ⟨by simp, [], rfl⟩
  | cons field rest inductionHypothesis =>
      obtain ⟨first, others⟩ := List.forall_mem_cons.1 each
      rw [List.forall_mem_cons]
      exact first.bind fun json => (inductionHypothesis others).map id

/-- If data is converted, then every path from it ends, and nothing but a circle stops the
conversion. -/
theorem Serializable.meetsCircleOr_founded {steps : Nat} {path : List Ref}
    (serializable : store.Serializable value) :
    MeetsCircleOr (store.Founded value)
      ((store.unfoldWithin true steps path value).toJson blobs) := by
  have isData := serializable value (.self store value)
  induction steps generalizing path value with
  | zero =>
      cases value with
      | cell ref => exact .inl rfl
      | bytes | moment => exact isData.elim
      | integer value => exact .inr ⟨.scalar (by simp), _, if_neg (Nat.not_lt.2 isData)⟩
      | _ => exact .inr ⟨.scalar (by simp), _, rfl⟩
  | succ steps inductionHypothesis =>
      cases value with
      | cell ref =>
          by_cases met : ref ∈ path
          · rw [unfoldWithin, if_pos met]
            exact .inl rfl
          · have inside : ∀ cell, store.read? ref = some cell → ∀ inner ∈ cell.values,
                MeetsCircleOr (store.Founded inner)
                  ((store.unfoldWithin true steps (ref :: path) inner).toJson blobs) :=
              fun cell read inner member =>
                have within := serializable.inside read member
                inductionHypothesis within (within inner (.self store inner))
            rcases isData with ⟨items, read⟩ | ⟨fields, read, _⟩
            · rw [unfoldWithin_array true steps met read]
              exact (meetsCircleOr_itemsToJson (inside _ read)).map (.container read)
            · rw [unfoldWithin_object true steps met read]
              have meets : MeetsCircleOr (∀ field ∈ fields, store.Founded field.2) _ :=
                meetsCircleOr_fieldsToJson fun field member =>
                  inside _ read field.2 (List.mem_map_of_mem member)
              refine meets.map fun each => .container read fun inner member => ?_
              obtain ⟨field, listed, rfl⟩ := List.mem_map.1 member
              exact each field listed
      | bytes | moment => exact isData.elim
      | integer value => exact .inr ⟨.scalar (by simp), _, if_neg (Nat.not_lt.2 isData)⟩
      | _ => exact .inr ⟨.scalar (by simp), _, rfl⟩

/-- Data in a circle is not converted, and this is the failure. -/
theorem Serializable.toJson_of_circular (serializable : store.Serializable value)
    (circular : store.Circular value) :
    (store.unfold value).toJson blobs = .error .circularReference := by
  rcases serializable.meetsCircleOr_founded with failed | ⟨founded, _⟩
  · exact failed
  · exact absurd circular founded.not_circular

/-- Data in no circle is a JSON tree. -/
theorem Serializable.exists_plain (serializable : store.Serializable value)
    (noCircle : ¬store.Circular value) : ∃ json, store.Plain value json :=
  (founded_iff.2 ⟨serializable.intact, noCircle⟩).exists_plain serializable

theorem Plain.toJson_unfold {json : Json} (plain : store.Plain value json) (blobs : Bool) :
    (store.unfold value).toJson blobs = .ok json := by
  have converted := plain.written.toJson_unfoldWithin (.start _) (Nat.le_add_right _ _)
  rw [plain.unfold_eq]
  exact Tree.toJson_of_readable blobs json (Tree.readable_toJson true _ converted)

/-! ### Copies through text -/

/-- What data is copied to through text, if it is not refused as a circle. -/
theorem Serializable.throughText_eq_error_iff (serializable : store.Serializable value) :
    (store.unfold value).throughText blobs = .error .circularReference ↔ store.Circular value := by
  constructor
  · intro refused
    apply Classical.byContradiction
    intro noCircle
    obtain ⟨json, plain⟩ := serializable.exists_plain noCircle
    rw [plain.unfold_eq, plain.throughText blobs] at refused
    cases refused
  · intro circular
    rw [Tree.throughText_eq, serializable.toJson_of_circular circular]
    rfl

/-- The copy of a plain value unfolds as the value does. All containers of the copy are new, and no
two positions share one. -/
theorem Plain.copied {json : Json} (plain : store.Plain value json) (target : Store) :
    let copy := target.place json.draft
    copy.2.unfold copy.1 = store.unfold value
      ∧ ∀ position ref, copy.2.at? position copy.1 = some (.cell ref) →
        target.size ≤ ref ∧ ∀ other, copy.2.at? other copy.1 = some (.cell ref) → other = position := by
  intro copy
  have wellKeyed := plain.written.wellKeyed
  have laid := laid_place json wellKeyed target
  refine ⟨?_, fun position ref found => ⟨?_, fun other foundOther => ?_⟩⟩
  · rw [plain.unfold_eq]
    exact unfold_place target wellKeyed
  · exact (laid.fits_at? found).bounds.1
  · exact laid.position_unique foundOther found

end Store

/-! ### Documents and saves -/

theorem Document.writeJson_eq_error_iff {store : Store} {document : Document}
    (serializable : store.Serializable (.cell document.bag)) :
    document.writeJson store = .error .circularReference
      ↔ store.Circular (.cell document.bag) := by
  rw [writeJson, Tree.writeJson]
  constructor
  · intro refused
    apply Classical.byContradiction
    intro noCircle
    obtain ⟨json, plain⟩ := serializable.exists_plain noCircle
    rw [plain.toJson_unfold true] at refused
    cases refused
  · intro circular
    rw [serializable.toJson_of_circular circular]
    rfl

/-- The reason of a save that overwrites is the circle of its bag, or another one than circles. -/
theorem Memory.save_eq_error_iff [Machine] {store : Store} {value : Value}
    (serializable : store.Serializable value) (memory : Memory) (collection : Address)
    (identifier : String) {control : Option ConcurrencyControl}
    (overwrites : control ≠ some .failOnConflict) (sequence : Int) :
    (memory.save collection identifier (store.unfold value) control sequence).1
        = .error .circularReference
      ↔ store.Circular value := by
  have free : memory.hasConflict collection identifier control sequence = false :=
    hasConflict_of_ne_failOnConflict overwrites
  constructor
  · intro refused
    apply Classical.byContradiction
    intro noCircle
    obtain ⟨json, plain⟩ := serializable.exists_plain noCircle
    have copying := plain.throughText true
    rw [← plain.unfold_eq] at copying
    -- what comes after the copy fails for the bytes of a blob only
    cases detaching : ContentStore.detached json with
    | error fault =>
        rw [save_of_fault free copying detaching] at refused
        cases refused
    | ok stored =>
        have form : (store.unfold value).storedForm = .ok stored := by
          rw [Tree.storedForm, copying]
          simp only [bind, Except.bind, detaching]
          rfl
        obtain ⟨contents, saving⟩ := save_of_storedForm_ok free form
        rw [saving] at refused
        cases refused
  · intro circular
    have copying : (store.unfold value).throughText true = .error .circularReference :=
      serializable.throughText_eq_error_iff.2 circular
    rw [save_of_refused free copying]

/-! ### Circular bags -/

/-- Whether a bag over lists and objects can be written, copied and saved depends on nothing but
circles. With more steps than there are cells nothing changes, so it is not the number of steps that
ends a path. -/
theorem Document.circles_are_detected [Machine] {store : Store} {document : Document}
    (serializable : store.Serializable (.cell document.bag)) :
    let bag := Value.cell document.bag
    (∀ more, store.unfoldWithin true (store.size + more) [] bag = store.unfold bag)
      ∧ (document.writeJson store = .error .circularReference ↔ store.Circular bag)
      ∧ (∀ blobs, (store.unfold bag).throughText blobs = .error .circularReference
          ↔ store.Circular bag)
      ∧ (∀ (memory : Memory) (collection : Address) (identifier : String)
          (control : Option ConcurrencyControl) (sequence : Int), control ≠ some .failOnConflict →
          ((DocumentEngine.perform store (.save collection identifier bag control sequence)
              memory).1.result = .error .circularReference ↔ store.Circular bag))
      ∧ (¬store.Circular bag →
          (∃ text, document.writeJson store = .ok text)
            ∧ ∀ blobs, ∃ copied, (store.unfold bag).throughText blobs = .ok copied
              ∧ ∀ target : Store,
                let copy := target.place copied.draft
                copy.2.unfold copy.1 = store.unfold bag
                  ∧ ∀ position ref, copy.2.at? position copy.1 = some (.cell ref) →
                    target.size ≤ ref
                      ∧ ∀ other, copy.2.at? other copy.1 = some (.cell ref) → other = position) := by
  intro bag
  refine ⟨fun more => ?_, ?_, fun blobs => ?_, ?_, fun noCircle => ?_⟩
  · exact Store.unfoldWithin_of_more_steps serializable.intact (.nil store)
      (Nat.le_add_right _ _) more
  · exact writeJson_eq_error_iff serializable
  · exact serializable.throughText_eq_error_iff
  · intro memory collection identifier control sequence overwrites
    rw [← Memory.save_eq_error_iff serializable memory collection identifier overwrites sequence]
    constructor
    · exact Memory.eq_error_of_map
    · intro refused
      exact congrArg (Except.map Reply.saved) refused
  · obtain ⟨json, plain⟩ := serializable.exists_plain noCircle
    refine ⟨⟨json.write, ?_⟩, fun blobs => ⟨json, ?_, plain.copied⟩⟩
    · rw [writeJson, Tree.writeJson, plain.toJson_unfold true]
      rfl
    · rw [plain.unfold_eq]
      exact plain.throughText blobs

/-- Two bags over one array: the first holds it twice, the second also holds itself, in a list. -/
def Store.windingStore : Store :=
  ⟨#[.array [.text "Mon", .text "Tue"],
    .object [("days", .cell 0), ("nights", .cell 0)],
    .object [("days", .cell 0), ("parents", .cell 3)],
    .array [.cell 2]]⟩

theorem Store.serializable_windingStore {ref : Ref} (present : ref < 4) :
    windingStore.Serializable (.cell ref) := by
  have containers : ∀ ref < 4, windingStore.IsData (.cell ref) := by
    intro ref present
    match ref, present with
    | 0, _ | 3, _ => exact .inl ⟨_, rfl⟩
    | 1, _ | 2, _ => exact .inr ⟨_, rfl, by simp [Table.Distinct, Table.keys]⟩
  have pair : ∀ first second, windingStore.IsData first → windingStore.IsData second →
      ∀ inner ∈ [first, second], windingStore.IsData inner :=
    fun _ _ first second => List.forall_mem_cons.2 ⟨first, List.forall_mem_singleton.2 second⟩
  refine serializable_of_forall (containers ref present) fun ref cell read => ?_
  have found : ref < 4 := lt_size_of_read? read
  match ref, found with
  | 0, _ =>
      obtain rfl : cell = .array [.text "Mon", .text "Tue"] := (Option.some.inj read).symm
      exact pair _ _ trivial trivial
  | 1, _ =>
      obtain rfl : cell = .object [("days", .cell 0), ("nights", .cell 0)] :=
        (Option.some.inj read).symm
      exact pair _ _ (containers 0 (by decide)) (containers 0 (by decide))
  | 2, _ =>
      obtain rfl : cell = .object [("days", .cell 0), ("parents", .cell 3)] :=
        (Option.some.inj read).symm
      exact pair _ _ (containers 0 (by decide)) (containers 3 (by decide))
  | 3, _ =>
      obtain rfl : cell = .array [.cell 2] := (Option.some.inj read).symm
      exact List.forall_mem_singleton.2 (containers 2 (by decide))

theorem Document.sharing_bag_written_circular_bag_refused :
    (∃ text, (Document.mk true "trip" 0 none 1 none).writeJson Store.windingStore = .ok text)
      ∧ (Document.mk true "trip" 0 none 2 none).writeJson Store.windingStore
        = .error .circularReference := by
  have days : Store.windingStore.read? 0 = some (.array [.text "Mon", .text "Tue"]) := rfl
  have sharing : Store.windingStore.read? 1 =
      some (.object [("days", .cell 0), ("nights", .cell 0)]) := rfl
  have winding : Store.windingStore.read? 2 =
      some (.object [("days", .cell 0), ("parents", .cell 3)]) := rfl
  have parents : Store.windingStore.read? 3 = some (.array [.cell 2]) := rfl
  have founded : Store.windingStore.Founded (.cell 1) := by
    have founded : Store.windingStore.Founded (.cell 0) :=
      .container days (by simp [Cell.values, Store.Founded.scalar])
    exact .container sharing (by simp [Cell.values, founded])
  have circular : Store.windingStore.Circular (.cell 2) := by
    refine ⟨2, .self _ _, _, .cell 3, winding, by simp [Cell.values], ?_⟩
    exact .inside (.self _ _) parents (by simp [Cell.values])
  have trip := @circles_are_detected _ Store.windingStore ⟨true, "trip", 0, none, 1, none⟩
    (Store.serializable_windingStore (by decide))
  have loop := @circles_are_detected _ Store.windingStore ⟨true, "trip", 0, none, 2, none⟩
    (Store.serializable_windingStore (by decide))
  exact ⟨(trip.2.2.2.2 founded.not_circular).1, loop.2.1.2 circular⟩

end DocumentStore
