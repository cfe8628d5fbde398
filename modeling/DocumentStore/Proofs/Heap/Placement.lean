import DocumentStore.Proofs.Json.Copy
import DocumentStore.Proofs.Table.Fieldwise
import DocumentStore.Heap.Lemmas

/-!
Contract: a placed JSON tree unfolds to itself.

Owns: the unfolding of what placement allocates, in the store right after it and in every
store that still holds the allocated cells, and the fields of a placed object.

Does not own: changes of the allocated cells themselves.

Placement allocates a container after its contents, so a path into the placed tree meets only
references that lie in the range allocated for it, and meets none of them twice.
-/

set_option autoImplicit false

namespace DocumentStore.Store

theorem Extends.size_le {later earlier : Store} (extension : Extends later earlier) :
    earlier.size ≤ later.size := by
  rcases Nat.eq_zero_or_pos earlier.size with empty | positive
  · omega
  · cases read : earlier.read? (earlier.size - 1) with
    | none =>
        have beyond := read?_eq_none_iff.1 read
        omega
    | some cell =>
        have bound : earlier.size - 1 < later.size := lt_size_of_read? (extension _ _ read)
        omega

/-! ### Unfolding -/

/-- The references of a path lie outside the range that was allocated between two stores. -/
def Apart (path : List Ref) (before after : Store) : Prop :=
  ∀ ref ∈ path, ref < before.size ∨ after.size ≤ ref

/-- A store still holds, unchanged, the cells that were allocated between two others. -/
def Retains (later before after : Store) : Prop :=
  ∀ ref cell, before.size ≤ ref → after.read? ref = some cell → later.read? ref = some cell

theorem Extends.retains {later after : Store} (extension : Extends later after) (before : Store) :
    Retains later before after :=
  fun ref cell _ read => extension ref cell read

namespace Retains

variable {later before between after : Store} (retains : Retains later before after)

include retains

theorem first (extension : Extends after between) : Retains later before between :=
  fun ref cell new read => retains ref cell new (extension ref cell read)

theorem rest (grown : before.size ≤ between.size) : Retains later between after :=
  fun ref cell new read => retains ref cell (Nat.le_trans grown new) read

end Retains

/-- A container allocated after its contents is met for the first time, and its contents are
met from outside again. -/
private theorem Apart.enter {path : List Ref} {before after : Store} {cell : Cell} {steps : Nat}
    (apart : Apart path before (after.allocate cell).2) (grown : before.size ≤ after.size)
    (enough : (after.allocate cell).2.size ≤ before.size + steps) :
    ∃ fewer, steps = fewer + 1 ∧ (after.allocate cell).1 ∉ path
      ∧ after.size ≤ before.size + fewer ∧ Apart ((after.allocate cell).1 :: path) before after := by
  rw [size_allocate] at enough
  have new : (after.allocate cell).1 = after.size := rfl
  refine ⟨steps - 1, by omega, fun member => ?_, by omega, fun ref member => ?_⟩
  · rcases apart _ member with below | above
    · rw [new] at below
      exact absurd below (Nat.not_lt.2 grown)
    · rw [new, size_allocate] at above
      exact absurd above (Nat.not_succ_le_self _)
  · rcases List.mem_cons.1 member with rfl | old
    · exact .inr (Nat.le_of_eq new.symm)
    · rcases apart ref old with below | above
      · exact .inl below
      · rw [size_allocate] at above
        exact .inr (Nat.le_of_succ_le above)

section Unfolding

variable (blobsCount : Bool)

theorem unfoldWithin_array {store : Store} {ref : Ref} {path : List Ref} {items : List Value}
    (steps : Nat) (fresh : ref ∉ path) (read : store.read? ref = some (.array items)) :
    store.unfoldWithin blobsCount (steps + 1) path (.cell ref) =
      .array (items.map (store.unfoldWithin blobsCount steps (ref :: path))) := by
  rw [unfoldWithin, if_neg fresh, read]

theorem unfoldWithin_object {store : Store} {ref : Ref} {path : List Ref}
    {fields : Table String Value} (steps : Nat) (fresh : ref ∉ path)
    (read : store.read? ref = some (.object fields)) :
    store.unfoldWithin blobsCount (steps + 1) path (.cell ref) =
      .object (fields.map fun field =>
        (field.1, store.unfoldWithin blobsCount steps (ref :: path) field.2)) := by
  rw [unfoldWithin, if_neg fresh, read]

/-- The keys of a placed object are those of its draft. -/
theorem keys_placeFields_of_drafts (store : Store) (fields : List (String × Draft)) :
    Table.keys (store.placeFields fields).1 = Table.keys fields := by
  induction fields generalizing store with
  | nil => rfl
  | cons field rest inductionHypothesis =>
      obtain ⟨key, draft⟩ := field
      exact congrArg (key :: ·) (inductionHypothesis _)

theorem keys_placeFields (store : Store) (fields : List (String × Json)) :
    Table.keys (store.placeFields (Json.fieldDrafts fields)).1 = Table.keys fields := by
  rw [keys_placeFields_of_drafts]
  induction fields with
  | nil => rfl
  | cons field rest inductionHypothesis =>
      obtain ⟨key, value⟩ := field
      exact congrArg (key :: ·) inductionHypothesis

mutual

/-- What was placed unfolds to its tree, from any path that leads there from outside. -/
theorem unfoldWithin_place (json : Json) (wellKeyed : json.WellKeyed) (store later : Store)
    (retains : Retains later store (store.place json.draft).2) {steps : Nat} {path : List Ref}
    (enough : (store.place json.draft).2.size ≤ store.size + steps)
    (apart : Apart path store (store.place json.draft).2) :
    later.unfoldWithin blobsCount steps path (store.place json.draft).1 = json.toTree := by
  cases json with
  | array items =>
      have inner := unfoldWithin_placeItems items wellKeyed store later
      have grown := (extends_placeItems store (Json.itemDrafts items)).size_le
      rw [Json.draft, place] at retains enough apart ⊢
      generalize store.placeItems (Json.itemDrafts items) = placed at inner grown retains enough apart ⊢
      obtain ⟨values, after⟩ := placed
      dsimp only at inner grown retains enough apart ⊢
      obtain ⟨steps, rfl, fresh, enoughInside, apartInside⟩ := apart.enter grown enough
      rw [unfoldWithin_array blobsCount steps fresh
          (retains _ _ grown (read?_allocate_self after (.array values))),
        inner (retains.first (.allocate _ _)) enoughInside apartInside, Json.toTree]
  | object fields =>
      have inner := unfoldWithin_placeFields fields wellKeyed.2 store later
      have grown := (extends_placeFields store (Json.fieldDrafts fields)).size_le
      have keys := keys_placeFields store fields
      rw [Json.draft, place] at retains enough apart ⊢
      generalize store.placeFields (Json.fieldDrafts fields) = placed
        at inner grown keys retains enough apart ⊢
      obtain ⟨values, after⟩ := placed
      have distinct : Table.Distinct values := by
        unfold Table.Distinct
        rw [keys]
        exact wellKeyed.1
      dsimp only at inner grown retains enough apart ⊢
      rw [Table.ofEntries_eq_self distinct] at retains enough apart ⊢
      obtain ⟨steps, rfl, fresh, enoughInside, apartInside⟩ := apart.enter grown enough
      rw [unfoldWithin_object blobsCount steps fresh
          (retains _ _ grown (read?_allocate_self after (.object values))),
        inner (retains.first (.allocate _ _)) enoughInside apartInside, Json.toTree]
  | null => cases steps <;> rfl
  | boolean value => cases steps <;> rfl
  | integer value => cases steps <;> rfl
  | double value => cases steps <;> rfl
  | text value => cases steps <;> rfl

theorem unfoldWithin_placeItems (items : List Json) (wellKeyed : Json.WellKeyedItems items)
    (store later : Store)
    (retains : Retains later store (store.placeItems (Json.itemDrafts items)).2) {steps : Nat}
    {path : List Ref}
    (enough : (store.placeItems (Json.itemDrafts items)).2.size ≤ store.size + steps)
    (apart : Apart path store (store.placeItems (Json.itemDrafts items)).2) :
    (store.placeItems (Json.itemDrafts items)).1.map (later.unfoldWithin blobsCount steps path) =
      Json.itemsToTree items := by
  cases items with
  | nil => rfl
  | cons item rest =>
      have first := unfoldWithin_place item wellKeyed.1 store later
      have others := unfoldWithin_placeItems rest wellKeyed.2 (store.place item.draft).2 later
      have grownFirst := (extends_place store item.draft).size_le
      have extends' := extends_placeItems (store.place item.draft).2 (Json.itemDrafts rest)
      have grownOthers := extends'.size_le
      rw [Json.itemDrafts, placeItems] at retains enough apart ⊢
      dsimp only at retains enough apart ⊢
      rw [List.map_cons, Json.itemsToTree,
        first (retains.first extends') (by omega) fun ref member => ?_,
        others (retains.rest grownFirst) (by omega) fun ref member => ?_]
      · rcases apart ref member with below | above
        · exact .inl (Nat.lt_of_lt_of_le below grownFirst)
        · exact .inr above
      · rcases apart ref member with below | above
        · exact .inl below
        · exact .inr (Nat.le_trans grownOthers above)

theorem unfoldWithin_placeFields (fields : List (String × Json))
    (wellKeyed : Json.WellKeyedFields fields) (store later : Store)
    (retains : Retains later store (store.placeFields (Json.fieldDrafts fields)).2) {steps : Nat}
    {path : List Ref}
    (enough : (store.placeFields (Json.fieldDrafts fields)).2.size ≤ store.size + steps)
    (apart : Apart path store (store.placeFields (Json.fieldDrafts fields)).2) :
    ((store.placeFields (Json.fieldDrafts fields)).1.map fun field =>
      (field.1, later.unfoldWithin blobsCount steps path field.2)) = Json.fieldsToTree fields := by
  cases fields with
  | nil => rfl
  | cons field rest =>
      obtain ⟨key, value⟩ := field
      have first := unfoldWithin_place value wellKeyed.1 store later
      have others := unfoldWithin_placeFields rest wellKeyed.2 (store.place value.draft).2 later
      have grownFirst := (extends_place store value.draft).size_le
      have extends' := extends_placeFields (store.place value.draft).2 (Json.fieldDrafts rest)
      have grownOthers := extends'.size_le
      rw [Json.fieldDrafts, placeFields] at retains enough apart ⊢
      dsimp only at retains enough apart ⊢
      rw [List.map_cons, Json.fieldsToTree,
        first (retains.first extends') (by omega) fun ref member => ?_,
        others (retains.rest grownFirst) (by omega) fun ref member => ?_]
      · rcases apart ref member with below | above
        · exact .inl (Nat.lt_of_lt_of_le below grownFirst)
        · exact .inr above
      · rcases apart ref member with below | above
        · exact .inl below
        · exact .inr (Nat.le_trans grownOthers above)

end

end Unfolding

/-- A placed tree without repeated keys unfolds to itself. -/
theorem unfold_place (store : Store) {json : Json} (wellKeyed : json.WellKeyed) :
    (store.place json.draft).2.unfold (store.place json.draft).1 = json.toTree :=
  unfoldWithin_place true json wellKeyed store _ ((Extends.refl _).retains _) (Nat.le_add_left _ _)
    fun _ member => absurd member List.not_mem_nil

/-- After a field was set, the tree of an object is that of its fields with the new one, each of
them seen from inside the object. -/
theorem unfold_setField (store : Store) {bag : Ref} (good : bag < store.size) (key : String)
    (value : Value) :
    ∃ steps fields, store.size = steps + 1
      ∧ (store.setField bag key value).unfold (.cell bag) = .object fields
      ∧ Table.Fieldwise
        (fun held tree => tree = (store.setField bag key value).unfoldWithin true steps [bag] held)
        (Table.put (store.fields bag) key value) fields := by
  obtain ⟨steps, size⟩ : ∃ steps, store.size = steps + 1 :=
    Nat.exists_eq_succ_of_ne_zero (Nat.ne_of_gt (Nat.zero_lt_of_lt good))
  have sizeSet : (store.setField bag key value).size = steps + 1 := (size_write _ _ _).trans size
  have read : (store.setField bag key value).read? bag =
      some (.object (Table.put (store.fields bag) key value)) := read?_write_self _ _ good
  have unfolded := unfoldWithin_object true steps List.not_mem_nil read
  rw [← sizeSet, ← unfold] at unfolded
  exact ⟨steps, _, size, unfolded, Table.Fieldwise.map _ _⟩

/-! ### The fields of a placed object -/

theorem Extends.object?_eq_some {later earlier : Store} (extension : Extends later earlier)
    {value : Value} {fields : Table String Value} (found : earlier.object? value = some fields) :
    later.object? value = some fields := by
  cases value with
  | cell ref =>
      unfold object? at found ⊢
      dsimp only at found ⊢
      cases read : earlier.read? ref with
      | none =>
          rw [read] at found
          cases found
      | some cell =>
          rw [read] at found
          rw [extension ref cell read]
          exact found
  | _ => cases found

theorem value?_placeFields (store : Store) {fields : List (String × Json)} {key : String}
    {json : Json} (found : Table.value? fields key = some json) :
    ∃ before : Store,
      Table.value? (store.placeFields (Json.fieldDrafts fields)).1 key =
          some (before.place json.draft).1
        ∧ Extends (store.placeFields (Json.fieldDrafts fields)).2 (before.place json.draft).2 := by
  induction fields generalizing store with
  | nil => cases found
  | cons field rest inductionHypothesis =>
      obtain ⟨present, value⟩ := field
      by_cases same : present = key
      · rw [Table.value?, if_pos same] at found
        obtain rfl := Option.some.inj found
        refine ⟨store, ?_, extends_placeFields (store.place value.draft).2 (Json.fieldDrafts rest)⟩
        show (if present = key then _ else _) = _
        rw [if_pos same]
      · rw [Table.value?, if_neg same] at found
        obtain ⟨before, placed, extension⟩ := inductionHypothesis (store.place value.draft).2 found
        refine ⟨before, ?_, extension⟩
        show (if present = key then _ else _) = _
        rw [if_neg same]
        exact placed

/-- A placed object holds under each key what was placed for it. -/
theorem value?_place_object (target : Store) {fields : List (String × Json)}
    (distinct : Table.Distinct fields) {key : String} {json : Json}
    (found : Table.value? fields key = some json) :
    ∃ (bag : Ref) (before : Store), (target.place (Json.object fields).draft).1 = .cell bag
      ∧ Table.value? ((target.place (Json.object fields).draft).2.fields bag) key =
          some (before.place json.draft).1
      ∧ Extends (target.place (Json.object fields).draft).2 (before.place json.draft).2 := by
  have keys := keys_placeFields target fields
  obtain ⟨before, placed, extension⟩ := value?_placeFields target found
  rw [Json.draft, place]
  generalize target.placeFields (Json.fieldDrafts fields) = result at keys placed extension ⊢
  obtain ⟨values, after⟩ := result
  have valuesDistinct : Table.Distinct values := by
    rw [Table.Distinct, keys]
    exact distinct
  dsimp only at placed extension ⊢
  rw [Table.ofEntries_eq_self valuesDistinct]
  refine ⟨_, before, rfl, ?_, (Extends.allocate after _).trans extension⟩
  rw [Store.fields, read?_allocate_self]
  exact placed

end DocumentStore.Store
