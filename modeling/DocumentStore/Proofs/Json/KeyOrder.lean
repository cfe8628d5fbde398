import DocumentStore.Proofs.Json.Trees
import DocumentStore.Proofs.Table.KeyOrder

/-!
Contract: a JSON tree with its keys in order is a normal form of the trees that differ in the
order of keys only.

Owns: equality up to the order in which keys arrived, that ordering the keys decides it, what
ordering keeps of a tree, and that trees with the same text are the same.

Does not own: the bytes of the text, and what is computed from them.

Trees are compared by look-ups: two objects are alike if under every key both have nothing or
both have values that are alike.
-/

set_option autoImplicit false

namespace DocumentStore

namespace Json

/-! ### Equality up to the order of keys -/

/-- The trees differ, at any depth, in nothing but the order in which the keys of an object
arrived. -/
inductive Rearranges : Json → Json → Prop where
  | null : Rearranges .null .null
  | boolean (value : Bool) : Rearranges (.boolean value) (.boolean value)
  | integer (value : Int) : Rearranges (.integer value) (.integer value)
  | double (value : Double) : Rearranges (.double value) (.double value)
  | text (value : String) : Rearranges (.text value) (.text value)
  | array {items others : List Json} (each : List.Forall₂ Rearranges items others) :
      Rearranges (.array items) (.array others)
  | object {fields others : List (String × Json)}
      (each : ∀ key, Option.Rel Rearranges (Table.value? fields key) (Table.value? others key)) :
      Rearranges (.object fields) (.object others)

/-- Two fields may arrive in either order. -/
theorem Rearranges.swap {first second : String} (apart : first ≠ second)
    {value other value' other' : Json} (alike : value.Rearranges value')
    (otherAlike : other.Rearranges other') :
    (Json.object [(first, value), (second, other)]).Rearranges
      (Json.object [(second, other'), (first, value')]) := by
  refine .object fun key => ?_
  by_cases isFirst : first = key
  · simpa [Table.value?, isFirst, isFirst ▸ apart.symm] using Option.Rel.some alike
  by_cases isSecond : second = key
  · simpa [Table.value?, isFirst, isSecond] using Option.Rel.some otherAlike
  · simp [Table.value?, isFirst, isSecond]

/-! ### Ordered keys -/

theorem sortedFields_eq_map (fields : List (String × Json)) :
    sortedFields fields = fields.map fun field => (field.1, field.2.sorted) := by
  induction fields with
  | nil => rfl
  | cons field rest inductionHypothesis =>
      obtain ⟨key, value⟩ := field
      rw [sortedFields, inductionHypothesis]
      rfl

theorem value?_sortedFields (fields : List (String × Json)) (key : String) :
    Table.value? (sortedFields fields) key = (Table.value? fields key).map sorted := by
  rw [sortedFields_eq_map, Table.value?_map]

theorem distinct_sortedFields {fields : List (String × Json)} (distinct : Table.Distinct fields) :
    Table.Distinct (sortedFields fields) := by
  rw [Table.Distinct, sortedFields_eq_map, Table.keys, List.map_map]
  exact distinct

/-- Objects become the same one with their keys in order if every look-up does. -/
theorem sorted_object_eq_iff {fields others : List (String × Json)}
    (distinct : Table.Distinct fields) (otherDistinct : Table.Distinct others) :
    (Json.object fields).sorted = (Json.object others).sorted ↔
      ∀ key, (Table.value? fields key).map sorted = (Table.value? others key).map sorted := by
  rw [sorted, sorted, Json.object.injEq, Table.inKeyOrder_eq_iff (distinct_sortedFields distinct)
    (distinct_sortedFields otherDistinct)]
  simp only [value?_sortedFields]

theorem wellKeyed_of_value? {fields : List (String × Json)} (wellKeyed : WellKeyedFields fields)
    {key : String} {value : Json} (found : Table.value? fields key = some value) :
    value.WellKeyed :=
  wellKeyedFields_iff.1 wellKeyed (key, value) (Table.mem_of_value? found)

mutual

/-- Trees that are equal up to the order of keys are the same one with their keys in order. -/
theorem Rearranges.sorted_eq {json other : Json} (rearranges : json.Rearranges other)
    (wellKeyed : json.WellKeyed) (otherWellKeyed : other.WellKeyed) :
    json.sorted = other.sorted := by
  cases rearranges with
  | @array items others each =>
      exact congrArg Json.array (sortedItems_eq each wellKeyed otherWellKeyed)
  | @object fields others each =>
      refine (sorted_object_eq_iff wellKeyed.1 otherWellKeyed.1).2 fun key => ?_
      have related := each key
      generalize found : Table.value? fields key = held,
        foundOther : Table.value? others key = otherHeld at related ⊢
      cases related with
      | none => rfl
      | some alike =>
          exact congrArg some (sortedFields_eq fields wellKeyed.2 _ (Table.mem_of_value? found) alike
            (wellKeyed_of_value? otherWellKeyed.2 foundOther))
  | _ => rfl

theorem sortedItems_eq {items others : List Json} (each : List.Forall₂ Rearranges items others)
    (wellKeyed : WellKeyedItems items) (otherWellKeyed : WellKeyedItems others) :
    sortedItems items = sortedItems others := by
  cases each with
  | nil => rfl
  | cons alike remaining =>
      rw [sortedItems, sortedItems, alike.sorted_eq wellKeyed.1 otherWellKeyed.1,
        sortedItems_eq remaining wellKeyed.2 otherWellKeyed.2]

theorem sortedFields_eq (fields : List (String × Json)) (wellKeyed : WellKeyedFields fields) :
    ∀ field ∈ fields, ∀ {other : Json}, field.2.Rearranges other → other.WellKeyed →
      field.2.sorted = other.sorted := by
  cases fields with
  | nil =>
      intro field member
      cases member
  | cons first rest =>
      obtain ⟨key, value⟩ := first
      exact List.forall_mem_cons.2 ⟨fun alike otherWellKeyed =>
        Rearranges.sorted_eq alike wellKeyed.1 otherWellKeyed, sortedFields_eq rest wellKeyed.2⟩

end

mutual

/-- Trees that become the same one with their keys in order are equal up to this order. -/
theorem rearranges_of_sorted_eq (json : Json) {other : Json} (wellKeyed : json.WellKeyed)
    (otherWellKeyed : other.WellKeyed) (same : json.sorted = other.sorted) :
    json.Rearranges other := by
  cases json with
  | null =>
      cases other <;> cases same
      exact .null
  | boolean value =>
      cases other <;> cases same
      exact .boolean value
  | integer value =>
      cases other <;> cases same
      exact .integer value
  | double value =>
      cases other <;> cases same
      exact .double value
  | text value =>
      cases other <;> cases same
      exact .text value
  | array items =>
      cases other with
      | array others =>
          exact .array (forall₂_of_sortedItems_eq items wellKeyed otherWellKeyed (Json.array.inj same))
      | _ => cases same
  | object fields =>
      cases other with
      | object others =>
          refine .object fun key => ?_
          have sameUnder := (sorted_object_eq_iff wellKeyed.1 otherWellKeyed.1).1 same key
          generalize found : Table.value? fields key = held,
            foundOther : Table.value? others key = otherHeld at sameUnder ⊢
          cases held with
          | none =>
              obtain rfl := Option.map_eq_none_iff.1 sameUnder.symm
              exact .none
          | some value =>
              obtain ⟨otherValue, rfl, sameValue⟩ := Option.map_eq_some_iff.1 sameUnder.symm
              exact .some (rearranges_of_sortedFields fields wellKeyed.2 _ (Table.mem_of_value? found)
                (wellKeyed_of_value? otherWellKeyed.2 foundOther) sameValue.symm)
      | _ => cases same

theorem forall₂_of_sortedItems_eq (items : List Json) {others : List Json}
    (wellKeyed : WellKeyedItems items) (otherWellKeyed : WellKeyedItems others)
    (same : sortedItems items = sortedItems others) : List.Forall₂ Rearranges items others := by
  cases items with
  | nil =>
      cases others <;> cases same
      exact .nil
  | cons item rest =>
      cases others with
      | nil => cases same
      | cons other remaining =>
          have parts := List.cons.inj same
          exact .cons (rearranges_of_sorted_eq item wellKeyed.1 otherWellKeyed.1 parts.1)
            (forall₂_of_sortedItems_eq rest wellKeyed.2 otherWellKeyed.2 parts.2)

theorem rearranges_of_sortedFields (fields : List (String × Json))
    (wellKeyed : WellKeyedFields fields) : ∀ field ∈ fields, ∀ {other : Json}, other.WellKeyed →
      field.2.sorted = other.sorted → field.2.Rearranges other := by
  cases fields with
  | nil =>
      intro field member
      cases member
  | cons first rest =>
      obtain ⟨key, value⟩ := first
      exact List.forall_mem_cons.2 ⟨fun otherWellKeyed same =>
        rearranges_of_sorted_eq value wellKeyed.1 otherWellKeyed same,
        rearranges_of_sortedFields rest wellKeyed.2⟩

end

/-- The order of keys is all that a tree loses with its keys in order. -/
theorem rearranges_iff {json other : Json} (wellKeyed : json.WellKeyed)
    (otherWellKeyed : other.WellKeyed) : json.Rearranges other ↔ json.sorted = other.sorted :=
  ⟨fun rearranges => rearranges.sorted_eq wellKeyed otherWellKeyed,
    rearranges_of_sorted_eq json wellKeyed otherWellKeyed⟩

/-! ### What ordering keeps -/

mutual

theorem sorted_sorted (json : Json) : json.sorted.sorted = json.sorted := by
  cases json with
  | array items => exact congrArg Json.array (sortedItems_sortedItems items)
  | object fields =>
      have inside := sortedFields_sortedFields fields
      simp only [sorted, Json.object.injEq]
      rw [sortedFields_eq_map] at inside ⊢
      rw [← Table.inKeyOrder_map, inside, Table.inKeyOrder_inKeyOrder]
  | _ => rfl

theorem sortedItems_sortedItems (items : List Json) :
    sortedItems (sortedItems items) = sortedItems items := by
  cases items with
  | nil => rfl
  | cons item rest => simp only [sortedItems, sorted_sorted item, sortedItems_sortedItems rest]

theorem sortedFields_sortedFields (fields : List (String × Json)) :
    sortedFields (sortedFields fields) = sortedFields fields := by
  cases fields with
  | nil => rfl
  | cons field rest =>
      obtain ⟨key, value⟩ := field
      simp only [sortedFields, sorted_sorted value, sortedFields_sortedFields rest]

end

mutual

theorem readable_sorted (json : Json) (readable : json.Readable) : json.sorted.Readable := by
  cases json with
  | array items => exact readableItems_sortedItems items readable
  | object fields =>
      have inside := readableFields_iff.1 (readableFields_sortedFields fields readable)
      exact readableFields_iff.2 fun field member =>
        inside field ((Table.inKeyOrder_perm _).mem_iff.1 member)
  | integer value => exact readable
  | _ => exact trivial

theorem readableItems_sortedItems (items : List Json) (readable : ReadableItems items) :
    ReadableItems (sortedItems items) := by
  cases items with
  | nil => exact trivial
  | cons item rest =>
      exact ⟨readable_sorted item readable.1, readableItems_sortedItems rest readable.2⟩

theorem readableFields_sortedFields (fields : List (String × Json))
    (readable : ReadableFields fields) : ReadableFields (sortedFields fields) := by
  cases fields with
  | nil => exact trivial
  | cons field rest =>
      obtain ⟨key, value⟩ := field
      exact ⟨readable_sorted value readable.1, readableFields_sortedFields rest readable.2⟩

end

mutual

theorem wellKeyed_sorted (json : Json) (wellKeyed : json.WellKeyed) : json.sorted.WellKeyed := by
  cases json with
  | array items => exact wellKeyedItems_sortedItems items wellKeyed
  | object fields =>
      have inside := wellKeyedFields_iff.1 (wellKeyedFields_sortedFields fields wellKeyed.2)
      exact ⟨(distinct_sortedFields wellKeyed.1).inKeyOrder, wellKeyedFields_iff.2 fun field member =>
        inside field ((Table.inKeyOrder_perm _).mem_iff.1 member)⟩
  | _ => exact trivial

theorem wellKeyedItems_sortedItems (items : List Json) (wellKeyed : WellKeyedItems items) :
    WellKeyedItems (sortedItems items) := by
  cases items with
  | nil => exact trivial
  | cons item rest =>
      exact ⟨wellKeyed_sorted item wellKeyed.1, wellKeyedItems_sortedItems rest wellKeyed.2⟩

theorem wellKeyedFields_sortedFields (fields : List (String × Json))
    (wellKeyed : WellKeyedFields fields) : WellKeyedFields (sortedFields fields) := by
  cases fields with
  | nil => exact trivial
  | cons field rest =>
      obtain ⟨key, value⟩ := field
      exact ⟨wellKeyed_sorted value wellKeyed.1, wellKeyedFields_sortedFields rest wellKeyed.2⟩

end

/-! ### Texts -/

/-- Trees with the same text are the same: the text can be read, and reading gives the tree. -/
theorem eq_of_render_eq {json other : Json} (readable : json.Readable) (wellKeyed : json.WellKeyed)
    (otherReadable : other.Readable) (otherWellKeyed : other.WellKeyed)
    (same : json.render = other.render) : json = other := by
  have readBack := read_write readable
  rw [merged_of_wellKeyed json wellKeyed] at readBack
  have otherReadBack := read_write otherReadable
  rw [merged_of_wellKeyed other otherWellKeyed, write, ← same] at otherReadBack
  exact Except.ok.inj (readBack.symm.trans otherReadBack)

/-- The text of a tree with its keys in order stands for the tree up to the order of keys. -/
theorem rearranges_iff_render_sorted_eq {json other : Json} (readable : json.Readable)
    (wellKeyed : json.WellKeyed) (otherReadable : other.Readable)
    (otherWellKeyed : other.WellKeyed) :
    json.Rearranges other ↔ json.sorted.render = other.sorted.render := by
  rw [rearranges_iff wellKeyed otherWellKeyed]
  exact ⟨congrArg render, eq_of_render_eq (readable_sorted json readable)
    (wellKeyed_sorted json wellKeyed) (readable_sorted other otherReadable)
    (wellKeyed_sorted other otherWellKeyed)⟩

end Json

end DocumentStore
