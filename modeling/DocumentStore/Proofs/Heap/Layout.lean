import DocumentStore.Proofs.Heap.Placement
import DocumentStore.Proofs.Table.Fieldwise

/-!
Contract: where the containers of a placed JSON tree lie.

Owns: positions in a value, the layout of a JSON tree in a range of references, and what a
change of one container does to the other positions of the tree.

Does not own: values that callers built, which may share containers in any way.

A container lies right after everything inside it, and what is inside it lies in one range for
each item or field. Different positions are therefore different containers, and a change of a
container is seen from the positions above it only.
-/

set_option autoImplicit false

namespace DocumentStore

/-- The values directly inside a cell. -/
def Cell.values : Cell → List Value
  | .array items => items
  | .object fields => fields.map Prod.snd
  | .blob held => [held.contentType, held.length, held.digest]

namespace Store

/-- The value at a place inside a container. Items and fields are numbered in their order. -/
def inside? (store : Store) (value : Value) (place : Nat) : Option Value :=
  match value with
  | .cell ref => (store.read? ref).bind fun cell => cell.values[place]?
  | _ => none

/-- The value at a position: the places on the way down to it. -/
def at? (store : Store) : List Nat → Value → Option Value
  | [], value => some value
  | place :: rest, value => (store.inside? value place).bind (store.at? rest)

mutual

/-- A value is a JSON tree whose containers are the references of a range, in the order in which
they are placed. -/
inductive Laid (store : Store) : Nat → Nat → Value → Json → Prop where
  | leaf (start : Nat) {value : Value} {json : Json} (plain : json.draft = .value value) :
      Laid store start start value json
  | array {start ref : Nat} {items : List Value} {jsons : List Json}
      (read : store.read? ref = some (.array items)) (each : LaidItems store start ref items jsons) :
      Laid store start (ref + 1) (.cell ref) (.array jsons)
  | object {start ref : Nat} {fields : Table String Value} {jsons : List (String × Json)}
      (read : store.read? ref = some (.object fields))
      (each : LaidFields store start ref fields jsons) :
      Laid store start (ref + 1) (.cell ref) (.object jsons)

inductive LaidItems (store : Store) : Nat → Nat → List Value → List Json → Prop where
  | nil (start : Nat) : LaidItems store start start [] []
  | cons {start middle finish : Nat} {item : Value} {json : Json} {rest : List Value}
      {others : List Json} (first : Laid store start middle item json)
      (remaining : LaidItems store middle finish rest others) :
      LaidItems store start finish (item :: rest) (json :: others)

inductive LaidFields (store : Store) :
    Nat → Nat → List (String × Value) → List (String × Json) → Prop where
  | nil (start : Nat) : LaidFields store start start [] []
  | cons {start middle finish : Nat} {key : String} {value : Value} {json : Json}
      {rest : List (String × Value)} {others : List (String × Json)}
      (first : Laid store start middle value json)
      (remaining : LaidFields store middle finish rest others) :
      LaidFields store start finish ((key, value) :: rest) ((key, json) :: others)

end

/-! ### Ranges -/

section Ranges

variable {store later : Store}

mutual

theorem Laid.le {start finish : Nat} {value : Value} {json : Json}
    (laid : store.Laid start finish value json) : start ≤ finish := by
  cases laid with
  | leaf => exact Nat.le_refl _
  | array _ each => exact Nat.le_succ_of_le each.le
  | object _ each => exact Nat.le_succ_of_le each.le

theorem LaidItems.le {start finish : Nat} {items : List Value} {jsons : List Json}
    (laid : store.LaidItems start finish items jsons) : start ≤ finish := by
  cases laid with
  | nil => exact Nat.le_refl _
  | cons first remaining => exact Nat.le_trans first.le remaining.le

theorem LaidFields.le {start finish : Nat} {fields : List (String × Value)}
    {jsons : List (String × Json)} (laid : store.LaidFields start finish fields jsons) : start ≤ finish := by
  cases laid with
  | nil => exact Nat.le_refl _
  | cons first remaining => exact Nat.le_trans first.le remaining.le

end

/-- Two stores have the same cells in a range. -/
def AgreeOn (store later : Store) (start finish : Nat) : Prop :=
  ∀ ref : Nat, start ≤ ref → ref < finish → later.read? ref = store.read? ref

theorem AgreeOn.mono {start finish inner outer : Nat} (agree : store.AgreeOn later start finish)
    (above : start ≤ inner) (below : outer ≤ finish) : store.AgreeOn later inner outer :=
  fun ref low high => agree ref (Nat.le_trans above low) (Nat.lt_of_lt_of_le high below)

mutual

/-- A layout depends on the cells of its range only. -/
theorem Laid.of_agree {start finish : Nat} {value : Value} {json : Json}
    (laid : store.Laid start finish value json) (agree : store.AgreeOn later start finish) : later.Laid start finish value json := by
  cases laid with
  | leaf _ plain => exact .leaf _ plain
  | array read each =>
      refine .array ?_ (each.of_agree (agree.mono (Nat.le_refl _) (Nat.le_succ _)))
      rw [agree _ each.le (Nat.lt_succ_self _), read]
  | object read each =>
      refine .object ?_ (each.of_agree (agree.mono (Nat.le_refl _) (Nat.le_succ _)))
      rw [agree _ each.le (Nat.lt_succ_self _), read]

theorem LaidItems.of_agree {start finish : Nat} {items : List Value} {jsons : List Json}
    (laid : store.LaidItems start finish items jsons) (agree : store.AgreeOn later start finish) :
    later.LaidItems start finish items jsons := by
  cases laid with
  | nil => exact .nil _
  | cons first remaining =>
      exact .cons (first.of_agree (agree.mono (Nat.le_refl _) remaining.le))
        (remaining.of_agree (agree.mono first.le (Nat.le_refl _)))

theorem LaidFields.of_agree {start finish : Nat} {fields : List (String × Value)}
    {jsons : List (String × Json)} (laid : store.LaidFields start finish fields jsons) (agree : store.AgreeOn later start finish) :
    later.LaidFields start finish fields jsons := by
  cases laid with
  | nil => exact .nil _
  | cons first remaining =>
      exact .cons (first.of_agree (agree.mono (Nat.le_refl _) remaining.le))
        (remaining.of_agree (agree.mono first.le (Nat.le_refl _)))

end

end Ranges

/-! ### The layout of a placed tree -/

theorem agreeOn_of_extends {store later : Store} (extension : Extends later store) (start : Nat) :
    store.AgreeOn later start store.size := by
  intro ref _ old
  cases read : store.read? ref with
  | none => exact absurd old (Nat.not_lt.2 (read?_eq_none_iff.1 read))
  | some cell => exact extension ref cell read

mutual

/-- A placed tree is laid out in the cells that are new. -/
theorem laid_place (json : Json) (wellKeyed : json.WellKeyed) (store : Store) :
    (store.place json.draft).2.Laid store.size (store.place json.draft).2.size
      (store.place json.draft).1 json := by
  cases json with
  | array items =>
      have each := laid_placeItems items wellKeyed store
      rw [Json.draft, place]
      generalize store.placeItems (Json.itemDrafts items) = placed at each ⊢
      obtain ⟨values, after⟩ := placed
      dsimp only at each ⊢
      rw [size_allocate]
      apply Laid.array (read?_allocate_self after _)
      exact each.of_agree (agreeOn_of_extends (.allocate after _) _)
  | object fields =>
      have each := laid_placeFields fields wellKeyed.2 store
      have keys := keys_placeFields store fields
      rw [Json.draft, place]
      generalize store.placeFields (Json.fieldDrafts fields) = placed at each keys ⊢
      obtain ⟨values, after⟩ := placed
      have distinct : Table.Distinct values := by
        rw [Table.Distinct, keys]
        exact wellKeyed.1
      dsimp only at each ⊢
      rw [size_allocate, Table.ofEntries_eq_self distinct]
      apply Laid.object (read?_allocate_self after _)
      exact each.of_agree (agreeOn_of_extends (.allocate after _) _)
  | _ => exact .leaf _ rfl

theorem laid_placeItems (items : List Json) (wellKeyed : Json.WellKeyedItems items)
    (store : Store) :
    (store.placeItems (Json.itemDrafts items)).2.LaidItems store.size
      (store.placeItems (Json.itemDrafts items)).2.size
      (store.placeItems (Json.itemDrafts items)).1 items := by
  cases items with
  | nil => exact .nil _
  | cons item rest =>
      have first := laid_place item wellKeyed.1 store
      have others := laid_placeItems rest wellKeyed.2 (store.place item.draft).2
      have extension := extends_placeItems (store.place item.draft).2 (Json.itemDrafts rest)
      exact .cons (first.of_agree (agreeOn_of_extends extension _)) others

theorem laid_placeFields (fields : List (String × Json)) (wellKeyed : Json.WellKeyedFields fields)
    (store : Store) :
    (store.placeFields (Json.fieldDrafts fields)).2.LaidFields store.size
      (store.placeFields (Json.fieldDrafts fields)).2.size
      (store.placeFields (Json.fieldDrafts fields)).1 fields := by
  cases fields with
  | nil => exact .nil _
  | cons field rest =>
      obtain ⟨key, value⟩ := field
      have first := laid_place value wellKeyed.1 store
      have others := laid_placeFields rest wellKeyed.2 (store.place value.draft).2
      have extension := extends_placeFields (store.place value.draft).2 (Json.fieldDrafts rest)
      exact .cons (first.of_agree (agreeOn_of_extends extension _)) others

end

/-! ### The tree of a layout -/

section Unfolding

variable {store : Store}

/-- No reference of a path lies in a range. -/
def Outside (path : List Nat) (start finish : Nat) : Prop :=
  ∀ ref ∈ path, ref < start ∨ finish ≤ ref

theorem Outside.mono {path : List Nat} {start finish inner outer : Nat}
    (outside : Outside path start finish) (above : start ≤ inner) (below : outer ≤ finish) :
    Outside path inner outer := by
  intro ref member
  have apart := outside ref member
  omega

/-- A path from outside of a range enters its last container for the first time, and the rest of
the range is still outside of the longer path. -/
private theorem enter_range {start ref steps : Nat} {path : List Nat} (low : start ≤ ref)
    (enough : ref + 1 ≤ start + steps) (outside : Outside path start (ref + 1)) :
    ∃ fewer, steps = fewer + 1 ∧ ref ∉ path ∧ ref ≤ start + fewer
      ∧ Outside (ref :: path) start ref := by
  refine ⟨steps - 1, by omega, ?_, by omega, ?_⟩
  · intro member
    have apart := outside ref member
    omega
  · intro other member
    rcases List.mem_cons.1 member with rfl | old
    · exact .inr (Nat.le_refl _)
    · exact (outside.mono (Nat.le_refl _) (Nat.le_succ _)) other old

mutual

/-- What is laid out as a tree unfolds to it, from any path that leads there from outside. -/
theorem Laid.unfoldWithin (blobsCount : Bool) {start finish steps : Nat} {path : List Nat}
    {value : Value} {json : Json} (laid : store.Laid start finish value json)
    (enough : finish ≤ start + steps) (outside : Outside path start finish) :
    store.unfoldWithin blobsCount steps path value = json.toTree := by
  cases laid with
  | leaf _ plain =>
      cases json with
      | array => cases plain
      | object => cases plain
      | _ =>
          cases plain
          cases steps <;> rfl
  | array read each =>
      obtain ⟨steps, rfl, fresh, enoughInside, outsideInside⟩ := enter_range each.le enough outside
      rw [unfoldWithin_array blobsCount steps fresh read, Json.toTree,
        each.unfoldWithin blobsCount enoughInside outsideInside]
  | object read each =>
      obtain ⟨steps, rfl, fresh, enoughInside, outsideInside⟩ := enter_range each.le enough outside
      rw [unfoldWithin_object blobsCount steps fresh read, Json.toTree,
        each.unfoldWithin blobsCount enoughInside outsideInside]

theorem LaidItems.unfoldWithin (blobsCount : Bool) {start finish steps : Nat} {path : List Nat}
    {items : List Value} {jsons : List Json} (laid : store.LaidItems start finish items jsons)
    (enough : finish ≤ start + steps) (outside : Outside path start finish) :
    items.map (store.unfoldWithin blobsCount steps path) = Json.itemsToTree jsons := by
  cases laid with
  | nil => rfl
  | cons first remaining =>
      have low := first.le
      have high := remaining.le
      rw [List.map_cons, Json.itemsToTree,
        first.unfoldWithin blobsCount (by omega) (outside.mono (Nat.le_refl _) high),
        remaining.unfoldWithin blobsCount (by omega) (outside.mono low (Nat.le_refl _))]

theorem LaidFields.unfoldWithin (blobsCount : Bool) {start finish steps : Nat} {path : List Nat}
    {fields : List (String × Value)} {jsons : List (String × Json)}
    (laid : store.LaidFields start finish fields jsons) (enough : finish ≤ start + steps)
    (outside : Outside path start finish) :
    (fields.map fun field => (field.1, store.unfoldWithin blobsCount steps path field.2)) =
      Json.fieldsToTree jsons := by
  cases laid with
  | nil => rfl
  | cons first remaining =>
      have low := first.le
      have high := remaining.le
      rw [List.map_cons, Json.fieldsToTree,
        first.unfoldWithin blobsCount (by omega) (outside.mono (Nat.le_refl _) high),
        remaining.unfoldWithin blobsCount (by omega) (outside.mono low (Nat.le_refl _))]

end

theorem Laid.unfold_eq {start finish : Nat} {value : Value} {json : Json}
    (laid : store.Laid start finish value json) (present : finish ≤ store.size) : store.unfold value = json.toTree := by
  apply laid.unfoldWithin true (by omega)
  intro ref member
  cases member

end Unfolding

/-! ### The fields of a layout -/

section Reading

variable {store : Store}

/-- A value is laid out as a tree somewhere. -/
def IsLaid (store : Store) (value : Value) (json : Json) : Prop :=
  ∃ start finish, store.Laid start finish value json

theorem LaidFields.fieldwise {start finish : Nat} {fields : List (String × Value)}
    {jsons : List (String × Json)} (laid : store.LaidFields start finish fields jsons) :
    Table.Fieldwise store.IsLaid fields jsons := by
  induction fields generalizing start jsons with
  | nil =>
      cases laid
      exact .nil
  | cons field rest inductionHypothesis =>
      cases laid with
      | cons first remaining => exact .cons ⟨_, _, first⟩ (inductionHypothesis remaining)

/-- A value is an object of the store exactly when it is laid out as one. -/
theorem IsLaid.object? {value : Value} {json : Json} (laid : store.IsLaid value json) :
    (store.object? value = none ∧ ∀ fields, json ≠ .object fields)
      ∨ ∃ fields jsons, store.object? value = some fields ∧ json = .object jsons
        ∧ Table.Fieldwise store.IsLaid fields jsons := by
  obtain ⟨start, finish, laid⟩ := laid
  cases laid with
  | leaf _ plain =>
      cases json with
      | array => cases plain
      | object => cases plain
      | _ =>
          cases plain
          exact .inl ⟨rfl, fun fields same => by cases same⟩
  | array read each =>
      refine .inl ⟨?_, fun fields same => by cases same⟩
      rw [Store.object?, read]
  | object read each =>
      refine .inr ⟨_, _, ?_, rfl, each.fieldwise⟩
      rw [Store.object?, read]

end Reading

/-! ### Positions of a layout -/

section Positions

variable {store : Store} {start finish ref : Nat} {value inner : Value} {json : Json}

theorem LaidFields.values {fields : List (String × Value)} {jsons : List (String × Json)}
    (laid : store.LaidFields start finish fields jsons) :
    store.LaidItems start finish (fields.map Prod.snd) (jsons.map Prod.snd) := by
  induction fields generalizing start jsons with
  | nil =>
      cases laid
      exact .nil _
  | cons field rest inductionHypothesis =>
      cases laid with
      | cons first remaining => exact .cons first (inductionHypothesis remaining)

/-- A container of a layout is the last one of its range, and what is inside it fills the rest. -/
theorem Laid.container (laid : store.Laid start finish (.cell ref) json) :
    finish = ref + 1 ∧ ∃ cell jsons, store.read? ref = some cell
      ∧ store.LaidItems start ref cell.values jsons := by
  cases laid with
  | leaf _ plain => cases json <;> cases plain
  | array read each => exact ⟨rfl, _, _, read, each⟩
  | object read each => exact ⟨rfl, _, _, read, each.values⟩

/-- A value is laid out as some tree within a range. -/
def Fits (store : Store) (low high : Nat) (value : Value) : Prop :=
  ∃ start finish json, store.Laid start finish value json ∧ low ≤ start ∧ finish ≤ high

theorem Fits.mono {low high lower higher : Nat} (fits : store.Fits low high value)
    (below : lower ≤ low) (above : high ≤ higher) : store.Fits lower higher value := by
  obtain ⟨start, finish, json, laid, first, last⟩ := fits
  exact ⟨start, finish, json, laid, Nat.le_trans below first, Nat.le_trans last above⟩

theorem Fits.bounds {low high : Nat} (fits : store.Fits low high (.cell ref)) :
    low ≤ ref ∧ ref < high := by
  obtain ⟨start, finish, json, laid, first, last⟩ := fits
  obtain ⟨same, cell, jsons, _, each⟩ := laid.container
  have least := each.le
  omega

theorem LaidItems.fits {items : List Value} {jsons : List Json}
    (laid : store.LaidItems start finish items jsons) {place : Nat}
    (found : items[place]? = some inner) : store.Fits start finish inner := by
  induction items generalizing start jsons place with
  | nil => cases found
  | cons item rest inductionHypothesis =>
      cases laid with
      | cons first remaining =>
          cases place with
          | zero =>
              cases found
              exact ⟨_, _, _, first, Nat.le_refl _, remaining.le⟩
          | succ place => exact (inductionHypothesis remaining found).mono first.le (Nat.le_refl _)

/-- What stands at different places lies in ranges one after the other. -/
theorem LaidItems.split {items : List Value} {jsons : List Json}
    (laid : store.LaidItems start finish items jsons) {place other : Nat} {later : Value}
    (order : place < other) (found : items[place]? = some inner)
    (foundLater : items[other]? = some later) :
    ∃ middle, store.Fits start middle inner ∧ store.Fits middle finish later := by
  induction items generalizing start jsons place other with
  | nil => cases found
  | cons item rest inductionHypothesis =>
      cases laid with
      | cons first remaining =>
          obtain ⟨other, rfl⟩ : ∃ fewer, other = fewer + 1 := ⟨other - 1, by omega⟩
          cases place with
          | zero =>
              cases found
              exact ⟨_, ⟨_, _, _, first, Nat.le_refl _, Nat.le_refl _⟩, remaining.fits foundLater⟩
          | succ place =>
              obtain ⟨middle, left, right⟩ :=
                inductionHypothesis remaining (Nat.lt_of_succ_lt_succ order) found foundLater
              exact ⟨middle, left.mono first.le (Nat.le_refl _), right⟩

theorem inside?_eq_some {place : Nat} (found : store.inside? value place = some inner) :
    ∃ ref cell, value = .cell ref ∧ store.read? ref = some cell
      ∧ cell.values[place]? = some inner := by
  unfold inside? at found
  split at found
  · next ref =>
      obtain ⟨cell, read, held⟩ := Option.bind_eq_some_iff.1 found
      exact ⟨ref, cell, rfl, read, held⟩
  · cases found

theorem at?_cons_eq_some {place : Nat} {rest : List Nat}
    (found : store.at? (place :: rest) value = some inner) :
    ∃ between, store.inside? value place = some between ∧ store.at? rest between = some inner :=
  Option.bind_eq_some_iff.1 found

theorem Laid.inside (laid : store.Laid start finish value json) {place : Nat}
    (found : store.inside? value place = some inner) :
    ∃ ref cell jsons, value = .cell ref ∧ finish = ref + 1 ∧ store.read? ref = some cell
      ∧ store.LaidItems start ref cell.values jsons ∧ cell.values[place]? = some inner := by
  obtain ⟨ref, cell, rfl, read, held⟩ := inside?_eq_some found
  obtain ⟨last, present, jsons, readSame, each⟩ := laid.container
  rw [read] at readSame
  cases readSame
  exact ⟨ref, cell, jsons, rfl, last, read, each, held⟩

/-- Whatever stands at a position of a layout is laid out within its range. -/
theorem Laid.fits_at? {position : List Nat} (laid : store.Laid start finish value json)
    (found : store.at? position value = some inner) : store.Fits start finish inner := by
  induction position generalizing start finish value json with
  | nil =>
      cases found
      exact ⟨_, _, _, laid, Nat.le_refl _, Nat.le_refl _⟩
  | cons place rest inductionHypothesis =>
      obtain ⟨between, foundBetween, foundInner⟩ := at?_cons_eq_some found
      obtain ⟨ref, cell, jsons, rfl, rfl, _, each, held⟩ := laid.inside foundBetween
      obtain ⟨first, last, sub, laidBetween, low, high⟩ := each.fits held
      exact (inductionHypothesis laidBetween foundInner).mono low (Nat.le_succ_of_le high)

theorem Fits.at? {low high : Nat} {position : List Nat} (fits : store.Fits low high value)
    (found : store.at? position value = some inner) : store.Fits low high inner := by
  obtain ⟨start, finish, json, laid, first, last⟩ := fits
  exact (laid.fits_at? found).mono first last

/-- What stands at a position that is not above a container lies apart from this container. -/
theorem Laid.fits_apart {position other : List Nat} (laid : store.Laid start finish value json)
    (found : store.at? position value = some (.cell ref))
    (sought : store.at? other value = some inner) (elsewhere : ¬other <+: position) :
    store.Fits start ref inner ∨ store.Fits (ref + 1) finish inner := by
  induction other generalizing start finish value json position with
  | nil => exact absurd List.nil_prefix elsewhere
  | cons place rest inductionHypothesis =>
      obtain ⟨between, foundBetween, foundInner⟩ := at?_cons_eq_some sought
      obtain ⟨root, cell, jsons, rfl, rfl, read, each, held⟩ := laid.inside foundBetween
      cases position with
      | nil =>
          -- the container is the root, and everything else lies below it
          cases found
          exact .inl ((each.fits held).at? foundInner)
      | cons other remaining =>
          obtain ⟨beside, foundBeside, foundRef⟩ := at?_cons_eq_some found
          obtain ⟨_, cellSame, _, same, _, readSame, _, heldBeside⟩ := laid.inside foundBeside
          cases same
          rw [read] at readSame
          cases readSame
          rcases Nat.lt_trichotomy place other with before | same | after
          · obtain ⟨middle, left, right⟩ := each.split before held heldBeside
            have bounds := (right.at? foundRef).bounds
            exact .inl ((left.at? foundInner).mono (Nat.le_refl _) bounds.1)
          · subst same
            rw [held] at heldBeside
            cases heldBeside
            obtain ⟨first, last, sub, laidBetween, low, high⟩ := each.fits held
            have elsewhereInside : ¬rest <+: remaining := by
              intro above
              exact elsewhere ((List.prefix_cons_inj place).2 above)
            rcases inductionHypothesis laidBetween foundRef foundInner elsewhereInside with
              below | above
            · exact .inl (below.mono low (Nat.le_refl _))
            · exact .inr (above.mono (Nat.le_refl _) (Nat.le_succ_of_le high))
          · obtain ⟨middle, left, right⟩ := each.split after heldBeside held
            have bounds := (left.at? foundRef).bounds
            exact .inr ((right.at? foundInner).mono bounds.2 (Nat.le_succ _))

/-- No two positions of a layout share a container. -/
theorem Laid.position_unique {position other : List Nat}
    (laid : store.Laid start finish value json)
    (found : store.at? position value = some (.cell ref))
    (foundOther : store.at? other value = some (.cell ref)) : position = other := by
  -- a container does not lie apart from itself
  have above : ∀ {first second : List Nat}, store.at? first value = some (.cell ref) →
      store.at? second value = some (.cell ref) → second <+: first := by
    intro first second foundFirst foundSecond
    apply Classical.byContradiction
    intro elsewhere
    rcases laid.fits_apart foundFirst foundSecond elsewhere with below | beyond
    · exact Nat.lt_irrefl _ below.bounds.2
    · exact Nat.lt_irrefl _ beyond.bounds.1
  have first := above found foundOther
  exact (above foundOther found).eq_of_length_le first.length_le

/-! ### A change of one container -/

/-- Whatever was there is as it was, except for some cells. -/
structure Spares (before after : Store) (changed : Ref → Prop) : Prop where
  size_le : before.size ≤ after.size
  others : ∀ ref, ¬changed ref → ref < before.size → after.read? ref = before.read? ref

variable {after : Store} {changed : Ref → Prop}

theorem Spares.agreeOn (spares : store.Spares after changed) (present : finish ≤ store.size)
    (apart : ∀ ref : Nat, start ≤ ref → ref < finish → ¬changed ref) :
    store.AgreeOn after start finish :=
  fun ref low high => spares.others ref (apart ref low high) (Nat.lt_of_lt_of_le high present)

theorem Spares.at?_eq {position : List Nat} (spares : store.Spares after changed)
    (away : ∀ before ref, before <+: position → store.at? before value = some (.cell ref) →
      ¬changed ref ∧ ref < store.size) :
    after.at? position value = store.at? position value := by
  induction position generalizing value with
  | nil => rfl
  | cons place rest inductionHypothesis =>
      have same : after.inside? value place = store.inside? value place := by
        unfold inside?
        split
        · next root =>
            obtain ⟨kept, present⟩ := away [] root List.nil_prefix rfl
            rw [spares.others root kept present]
        · rfl
      rw [at?, at?, same]
      cases between : store.inside? value place with
      | none => rfl
      | some inner =>
          apply inductionHypothesis
          intro before ref above found
          apply away (place :: before) ref ((List.prefix_cons_inj place).2 above)
          rw [at?, between]
          exact found

/-- A change of the container at one position leaves the value at every position that is not
inside this container where it was. -/
theorem Laid.at?_of_spares {position other : List Nat} (laid : store.Laid start finish value json)
    (present : finish ≤ store.size) (found : store.at? position value = some (.cell ref))
    (spares : store.Spares after (· = ref)) (outside : ¬position <+: other) :
    after.at? other value = store.at? other value := by
  apply spares.at?_eq
  intro before other above foundBefore
  constructor
  · rintro rfl
    rw [laid.position_unique foundBefore found] at above
    exact outside above
  · exact Nat.lt_of_lt_of_le (laid.fits_at? foundBefore).bounds.2 present

/-- A change of the container at one position leaves the tree at every position that does not
hold this container as it was. -/
theorem Laid.unfold_of_spares {position other : List Nat}
    (laid : store.Laid start finish value json) (present : finish ≤ store.size)
    (found : store.at? position value = some (.cell ref)) (spares : store.Spares after (· = ref))
    (sought : store.at? other value = some inner) (elsewhere : ¬other <+: position) :
    after.unfold inner = store.unfold inner := by
  have within := (laid.fits_at? found).bounds
  have unfolds : ∀ low high, store.Fits low high inner → high ≤ finish →
      (ref < low ∨ high ≤ ref) → after.unfold inner = store.unfold inner := by
    rintro low high ⟨first, last, sub, laidInner, above, below⟩ bounded apart
    have agree : store.AgreeOn after first last := by
      apply spares.agreeOn (by omega)
      rintro other low' high' rfl
      omega
    have size := spares.size_le
    rw [laidInner.unfold_eq (by omega), (laidInner.of_agree agree).unfold_eq (by omega)]
  rcases laid.fits_apart found sought elsewhere with below | above
  · exact unfolds _ _ below (by omega) (.inr (Nat.le_refl _))
  · exact unfolds _ _ above (Nat.le_refl _) (.inl (Nat.lt_succ_self _))

end Positions

end Store

end DocumentStore
