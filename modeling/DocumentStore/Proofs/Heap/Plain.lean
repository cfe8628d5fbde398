import DocumentStore.Proofs.Heap.Written
import DocumentStore.Proofs.Json.Trees

/-!
Contract: values that are JSON trees through and through, and drafts that become such values.

Owns: the values without blobs, byte strings, moments and circles, the JSON tree that each of them
unfolds to, and the drafts over them with the trees that they are placed as.

Does not own: blobs, which have a JSON tree only in the form of a bag.

Placement allocates around the values of a draft and changes none of their cells, so one derivation
of `Plain` for a value is good in every later store.
-/

set_option autoImplicit false

namespace DocumentStore.Store

mutual

/-- A value of a store is a JSON tree. -/
inductive Plain (store : Store) : Value → Json → Prop where
  | null : Plain store .null .null
  | boolean (value : Bool) : Plain store (.boolean value) (.boolean value)
  | integer {value : Int} (short : digitCount value ≤ digitLimit) :
      Plain store (.integer value) (.integer value)
  | double (value : Double) : Plain store (.double value) (.double value)
  | text (value : String) : Plain store (.text value) (.text value)
  | array {ref : Ref} {items : List Value} {jsons : List Json}
      (read : store.read? ref = some (.array items)) (each : PlainItems store items jsons) :
      Plain store (.cell ref) (.array jsons)
  | object {ref : Ref} {fields : Table String Value} {jsons : List (String × Json)}
      (read : store.read? ref = some (.object fields)) (distinct : Table.Distinct fields)
      (each : PlainFields store fields jsons) : Plain store (.cell ref) (.object jsons)

inductive PlainItems (store : Store) : List Value → List Json → Prop where
  | nil : PlainItems store [] []
  | cons {item : Value} {json : Json} {rest : List Value} {others : List Json}
      (first : Plain store item json) (remaining : PlainItems store rest others) :
      PlainItems store (item :: rest) (json :: others)

inductive PlainFields (store : Store) : List (String × Value) → List (String × Json) → Prop where
  | nil : PlainFields store [] []
  | cons {key : String} {value : Value} {json : Json} {rest : List (String × Value)}
      {others : List (String × Json)}
      (first : Plain store value json) (remaining : PlainFields store rest others) :
      PlainFields store ((key, value) :: rest) ((key, json) :: others)

end

variable {store : Store}

mutual

/-- A JSON tree is written as itself. -/
theorem Plain.written {value : Value} {json : Json} (plain : store.Plain value json) :
    store.Written value json := by
  cases plain with
  | null => exact .null
  | boolean value => exact .boolean value
  | integer short => exact .integer short
  | double value => exact .double value
  | text value => exact .text value
  | array read each => exact .array read each.written
  | object read distinct each => exact .object read distinct each.written

theorem PlainItems.written {items : List Value} {jsons : List Json}
    (plain : store.PlainItems items jsons) : store.WrittenItems items jsons := by
  cases plain with
  | nil => exact .nil
  | cons first remaining => exact .cons first.written remaining.written

theorem PlainFields.written {fields : List (String × Value)} {jsons : List (String × Json)}
    (plain : store.PlainFields fields jsons) : store.WrittenFields fields jsons := by
  cases plain with
  | nil => exact .nil
  | cons first remaining => exact .cons first.written remaining.written

end

mutual

theorem Plain.of_extends {later : Store} {value : Value} {json : Json}
    (plain : store.Plain value json) (extension : Extends later store) : later.Plain value json := by
  cases plain with
  | null => exact .null
  | boolean value => exact .boolean value
  | integer short => exact .integer short
  | double value => exact .double value
  | text value => exact .text value
  | array read each => exact .array (extension _ _ read) (each.of_extends extension)
  | object read distinct each =>
      exact .object (extension _ _ read) distinct (each.of_extends extension)

theorem PlainItems.of_extends {later : Store} {items : List Value} {jsons : List Json}
    (plain : store.PlainItems items jsons) (extension : Extends later store) :
    later.PlainItems items jsons := by
  cases plain with
  | nil => exact .nil
  | cons first remaining =>
      exact .cons (first.of_extends extension) (remaining.of_extends extension)

theorem PlainFields.of_extends {later : Store} {fields : List (String × Value)}
    {jsons : List (String × Json)} (plain : store.PlainFields fields jsons)
    (extension : Extends later store) :
    later.PlainFields fields jsons := by
  cases plain with
  | nil => exact .nil
  | cons first remaining =>
      exact .cons (first.of_extends extension) (remaining.of_extends extension)

end

/-! ### The tree of a plain value -/

mutual

theorem Plain.unfoldWithin {value : Value} {json : Json} (plain : store.Plain value json)
    {steps : Nat} {path : List Ref} (descends : store.Descends path (sizeOf json))
    (enough : store.size ≤ steps + path.length) :
    store.unfoldWithin true steps path value = json.toTree := by
  have whole := plain.written
  cases plain with
  | array read each =>
      have shorter := descends.length_lt whole
      obtain ⟨steps, rfl⟩ : ∃ fewer, steps = fewer + 1 := ⟨steps - 1, by omega⟩
      rw [unfoldWithin_array true steps (descends.not_mem whole) read, Json.toTree,
        each.unfoldWithin (descends.enter whole (by simp)) (by rw [List.length_cons]; omega)]
  | object read distinct each =>
      have shorter := descends.length_lt whole
      obtain ⟨steps, rfl⟩ : ∃ fewer, steps = fewer + 1 := ⟨steps - 1, by omega⟩
      rw [unfoldWithin_object true steps (descends.not_mem whole) read, Json.toTree,
        each.unfoldWithin (descends.enter whole (by simp)) (by rw [List.length_cons]; omega)]
  | _ => cases steps <;> rfl

theorem PlainItems.unfoldWithin {items : List Value} {jsons : List Json}
    (plain : store.PlainItems items jsons) {steps : Nat} {path : List Ref}
    (descends : store.Descends path (sizeOf jsons)) (enough : store.size ≤ steps + path.length) :
    items.map (store.unfoldWithin true steps path) = Json.itemsToTree jsons := by
  cases plain with
  | nil => rfl
  | cons first remaining =>
      rw [List.map_cons, Json.itemsToTree,
        first.unfoldWithin (descends.mono (by simp; omega)) enough,
        remaining.unfoldWithin (descends.mono (by simp)) enough]

theorem PlainFields.unfoldWithin {fields : List (String × Value)} {jsons : List (String × Json)}
    (plain : store.PlainFields fields jsons) {steps : Nat} {path : List Ref}
    (descends : store.Descends path (sizeOf jsons)) (enough : store.size ≤ steps + path.length) :
    (fields.map fun field => (field.1, store.unfoldWithin true steps path field.2)) =
      Json.fieldsToTree jsons := by
  cases plain with
  | nil => rfl
  | cons first remaining =>
      rw [List.map_cons, Json.fieldsToTree,
        first.unfoldWithin (descends.mono (by simp; omega)) enough,
        remaining.unfoldWithin (descends.mono (by simp)) enough]

end

/-- A plain value unfolds to its tree. -/
theorem Plain.unfold_eq {value : Value} {json : Json} (plain : store.Plain value json) :
    store.unfold value = json.toTree :=
  plain.unfoldWithin (.start _) (Nat.le_add_right _ _)

/-- The text of a plain value reads as its tree. -/
theorem Plain.throughText {value : Value} {json : Json} (plain : store.Plain value json)
    (blobs : Bool) : json.toTree.throughText blobs = .ok json := by
  have converted := plain.written.toJson_unfoldWithin (.start _) (Nat.le_add_right _ _)
  exact Tree.throughText_of_readable blobs (Tree.readable_toJson true _ converted)
    plain.written.wellKeyed

/-! ### Drafts -/

mutual

/-- A draft over the values of a store is placed as a JSON tree. -/
inductive Drafts (store : Store) : Draft → Json → Prop where
  | value {value : Value} {json : Json} (plain : store.Plain value json) :
      Drafts store (.value value) json
  | array {items : List Draft} {jsons : List Json} (each : DraftsItems store items jsons) :
      Drafts store (.array items) (.array jsons)
  | object {fields : List (String × Draft)} {jsons : List (String × Json)}
      (distinct : Table.Distinct fields) (each : DraftsFields store fields jsons) :
      Drafts store (.object fields) (.object jsons)

inductive DraftsItems (store : Store) : List Draft → List Json → Prop where
  | nil : DraftsItems store [] []
  | cons {item : Draft} {json : Json} {rest : List Draft} {others : List Json}
      (first : Drafts store item json) (remaining : DraftsItems store rest others) :
      DraftsItems store (item :: rest) (json :: others)

inductive DraftsFields (store : Store) : List (String × Draft) → List (String × Json) → Prop where
  | nil : DraftsFields store [] []
  | cons {key : String} {field : Draft} {json : Json} {rest : List (String × Draft)}
      {others : List (String × Json)}
      (first : Drafts store field json) (remaining : DraftsFields store rest others) :
      DraftsFields store ((key, field) :: rest) ((key, json) :: others)

end

theorem Drafts.text (text : String) : store.Drafts (.text text) (.text text) :=
  .value (.text text)

theorem DraftsItems.texts (store : Store) (texts : List String) :
    store.DraftsItems (texts.map Draft.text) (texts.map Json.text) := by
  induction texts with
  | nil => exact .nil
  | cons text rest inductionHypothesis => exact .cons (.text text) inductionHypothesis

mutual

/-- A draft is placed as its tree, also in a store that has grown since. -/
theorem Drafts.place {later : Store} {draft : Draft} {json : Json}
    (drafts : store.Drafts draft json) (extension : Extends later store) :
    (later.place draft).2.Plain (later.place draft).1 json := by
  cases drafts with
  | value plain => exact plain.of_extends extension
  | array each =>
      have placed := each.place extension
      apply Plain.array (read?_allocate_self _ _)
      exact placed.of_extends (.allocate _ _)
  | @object fields jsons distinct each =>
      have placed := each.place extension
      have placedDistinct : Table.Distinct (later.placeFields fields).1 := by
        rw [Table.Distinct, keys_placeFields_of_drafts]
        exact distinct
      show ((later.placeFields fields).2.allocate
        (.object (Table.ofEntries (later.placeFields fields).1))).2.Plain _ _
      rw [Table.ofEntries_eq_self placedDistinct]
      apply Plain.object (read?_allocate_self _ _) placedDistinct
      exact placed.of_extends (.allocate _ _)

theorem DraftsItems.place {later : Store} {items : List Draft} {jsons : List Json}
    (drafts : store.DraftsItems items jsons) (extension : Extends later store) :
    (later.placeItems items).2.PlainItems (later.placeItems items).1 jsons := by
  cases drafts with
  | nil => exact .nil
  | @cons item _ _ _ first remaining =>
      have grown : Extends (later.place item).2 store := (extends_place later item).trans extension
      apply PlainItems.cons
      · exact (first.place extension).of_extends (extends_placeItems _ _)
      · exact remaining.place grown

theorem DraftsFields.place {later : Store} {fields : List (String × Draft)}
    {jsons : List (String × Json)} (drafts : store.DraftsFields fields jsons)
    (extension : Extends later store) :
    (later.placeFields fields).2.PlainFields (later.placeFields fields).1 jsons := by
  cases drafts with
  | nil => exact .nil
  | @cons key field _ _ _ first remaining =>
      have grown : Extends (later.place field).2 store := (extends_place later field).trans extension
      apply PlainFields.cons
      · exact (first.place extension).of_extends (extends_placeFields _ _)
      · exact remaining.place grown

end

end DocumentStore.Store
