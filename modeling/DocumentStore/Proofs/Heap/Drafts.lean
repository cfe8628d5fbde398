import DocumentStore.Proofs.Heap.Circles
import DocumentStore.Proofs.Heap.Copies

/-!
Contract: the tree that a draft is placed as.

Owns: the tree of a draft over the values of a store, and that the placed draft unfolds to it, now
and after later allocations.

Does not own: drafts of blobs, which get their identity when they are placed.

Placement puts new containers around the values of a draft, so no path leads from one of the values
to a new container: where every path from the values ends, every path from the placed draft does.
-/

set_option autoImplicit false

namespace DocumentStore

namespace Draft

mutual

/-- The tree of a draft of values, arrays and objects. -/
def treeIn (store : Store) : Draft → Tree
  | .value leaf => store.unfold leaf
  | .array items => .array (itemTreesIn store items)
  | .object fields => .object (fieldTreesIn store fields)
  | .blob .. => .null

def itemTreesIn (store : Store) : List Draft → List Tree
  | [] => []
  | item :: rest => treeIn store item :: itemTreesIn store rest

def fieldTreesIn (store : Store) : List (String × Draft) → List (String × Tree)
  | [] => []
  | (key, field) :: rest => (key, treeIn store field) :: fieldTreesIn store rest

end

theorem keys_fieldTreesIn (store : Store) (fields : List (String × Draft)) :
    Table.keys (fieldTreesIn store fields) = Table.keys fields := by
  induction fields with
  | nil => rfl
  | cons field rest inductionHypothesis =>
      obtain ⟨key, draft⟩ := field
      exact congrArg (key :: ·) inductionHypothesis

end Draft

namespace Store

/-- Every path from a value ends, and the value unfolds to a tree. -/
structure UnfoldsTo (store : Store) (value : Value) (tree : Tree) : Prop where
  founded : store.Founded value
  unfolds : store.unfold value = tree

variable {store later : Store} {value : Value} {tree : Tree} {ref : Ref}

namespace UnfoldsTo

theorem of_extends (given : store.UnfoldsTo value tree) (extension : Extends later store) :
    later.UnfoldsTo value tree :=
  ⟨given.founded.of_extends extension,
    (given.founded.unfold_of_extends extension).trans given.unfolds⟩

theorem array {items : List Value} {trees : List Tree}
    (read : store.read? ref = some (.array items))
    (each : List.Forall₂ store.UnfoldsTo items trees) :
    store.UnfoldsTo (.cell ref) (.array trees) := by
  have inside : (∀ item ∈ items, store.Founded item) ∧ items.map store.unfold = trees := by
    clear read
    induction each with
    | nil => simp
    | cons first _ inductionHypothesis =>
        rw [List.forall_mem_cons, List.map_cons, first.unfolds, inductionHypothesis.2]
        exact ⟨⟨first.founded, inductionHypothesis.1⟩, rfl⟩
  have founded : store.Founded (.cell ref) := .container read inside.1
  exact ⟨founded, (founded.unfold_eq read).trans (congrArg Tree.array inside.2)⟩

theorem object {fields : Table String Value} {trees : List (String × Tree)}
    (read : store.read? ref = some (.object fields))
    (each : Table.Fieldwise store.UnfoldsTo fields trees) :
    store.UnfoldsTo (.cell ref) (.object trees) := by
  have inside : (∀ field ∈ fields, store.Founded field.2)
      ∧ fields.map (fun field => (field.1, store.unfold field.2)) = trees := by
    clear read
    induction each with
    | nil => simp
    | cons first _ inductionHypothesis =>
        rw [List.forall_mem_cons, List.map_cons, first.unfolds, inductionHypothesis.2]
        exact ⟨⟨first.founded, inductionHypothesis.1⟩, rfl⟩
  have founded : store.Founded (.cell ref) := by
    refine .container read fun inner member => ?_
    obtain ⟨field, listed, rfl⟩ := List.mem_map.1 member
    exact inside.1 field listed
  exact ⟨founded, (founded.unfold_eq read).trans (congrArg Tree.object inside.2)⟩

end UnfoldsTo

/-! ### Values in the shape of a draft -/

mutual

/-- A value of a store has the shape of a draft, with the values of the draft in its leaves. -/
def Holds (store : Store) : Draft → Value → Prop
  | .value leaf, value => value = leaf
  | .array items, value =>
      ∃ ref values, value = .cell ref ∧ store.read? ref = some (.array values)
        ∧ HoldsItems store items values
  | .object fields, value =>
      ∃ ref values, value = .cell ref ∧ store.read? ref = some (.object values)
        ∧ HoldsFields store fields values
  | .blob .., _ => False

def HoldsItems (store : Store) : List Draft → List Value → Prop
  | [], [] => True
  | item :: rest, value :: values => Holds store item value ∧ HoldsItems store rest values
  | _, _ => False

def HoldsFields (store : Store) : List (String × Draft) → List (String × Value) → Prop
  | [], [] => True
  | (key, field) :: rest, (present, value) :: values =>
      present = key ∧ Holds store field value ∧ HoldsFields store rest values
  | _, _ => False

end

mutual

/-- A draft is placed in its shape, and keeps it as long as the placed cells are as they were. -/
theorem holds_place {store later : Store} (draft : Draft) (isCopy : draft.IsCopy)
    (retains : Retains later store (store.place draft).2) :
    later.Holds draft (store.place draft).1 := by
  cases draft with
  | value value => exact rfl
  | array items =>
      have grown := (extends_placeItems store items).size_le
      have each := holds_placeItems items isCopy (retains.first (.allocate _ _))
      exact ⟨_, _, rfl, retains _ _ grown (read?_allocate_self _ _), each⟩
  | object fields =>
      have grown := (extends_placeFields store fields).size_le
      have each := holds_placeFields fields isCopy.2 (retains.first (.allocate _ _))
      have distinct : Table.Distinct (store.placeFields fields).1 := by
        rw [Table.Distinct, keys_placeFields_of_drafts]
        exact isCopy.1
      have read := retains _ _ grown (read?_allocate_self _ _)
      rw [Table.ofEntries_eq_self distinct] at read
      exact ⟨_, _, rfl, read, each⟩
  | blob => exact isCopy.elim

theorem holds_placeItems {store later : Store} (items : List Draft)
    (isCopy : Draft.IsCopyItems items) (retains : Retains later store (store.placeItems items).2) :
    later.HoldsItems items (store.placeItems items).1 := by
  cases items with
  | nil => exact trivial
  | cons item rest =>
      have grown := (extends_place store item).size_le
      have growingOn := extends_placeItems (store.place item).2 rest
      exact ⟨holds_place item isCopy.1 (retains.first growingOn),
        holds_placeItems rest isCopy.2 (retains.rest grown)⟩

theorem holds_placeFields {store later : Store} (fields : List (String × Draft))
    (isCopy : Draft.IsCopyFields fields)
    (retains : Retains later store (store.placeFields fields).2) :
    later.HoldsFields fields (store.placeFields fields).1 := by
  cases fields with
  | nil => exact trivial
  | cons field rest =>
      obtain ⟨key, field⟩ := field
      have grown := (extends_place store field).size_le
      have growingOn := extends_placeFields (store.place field).2 rest
      exact ⟨rfl, holds_place field isCopy.1 (retains.first growingOn),
        holds_placeFields rest isCopy.2 (retains.rest grown)⟩

end

mutual

/-- In the shape of a draft over values from which every path ends, a value unfolds to the tree of
the draft. -/
theorem Holds.unfoldsTo {base store : Store} {draft : Draft} {value : Value}
    (holds : store.Holds draft value) (founded : ∀ leaf ∈ draft.leaves, base.Founded leaf)
    (extension : Extends store base) : store.UnfoldsTo value (draft.treeIn base) := by
  cases draft with
  | value leaf =>
      obtain rfl : value = leaf := holds
      have leaf := founded value (List.mem_singleton_self value)
      exact ⟨leaf.of_extends extension, leaf.unfold_of_extends extension⟩
  | array items =>
      obtain ⟨ref, values, rfl, read, each⟩ := holds
      exact .array read (each.unfoldsTo founded extension)
  | object fields =>
      obtain ⟨ref, values, rfl, read, each⟩ := holds
      exact .object read (each.unfoldsTo founded extension)
  | blob => exact holds.elim

theorem HoldsItems.unfoldsTo {base store : Store} {items : List Draft} {values : List Value}
    (holds : store.HoldsItems items values)
    (founded : ∀ leaf ∈ Draft.leavesOfItems items, base.Founded leaf)
    (extension : Extends store base) :
    List.Forall₂ store.UnfoldsTo values (Draft.itemTreesIn base items) := by
  match items, values with
  | [], [] => exact .nil
  | [], _ :: _ | _ :: _, [] => exact holds.elim
  | item :: rest, value :: remaining =>
      rw [Draft.leavesOfItems, List.forall_mem_append] at founded
      exact .cons (Holds.unfoldsTo holds.1 founded.1 extension)
        (HoldsItems.unfoldsTo holds.2 founded.2 extension)

theorem HoldsFields.unfoldsTo {base store : Store} {fields : List (String × Draft)}
    {values : List (String × Value)} (holds : store.HoldsFields fields values)
    (founded : ∀ leaf ∈ Draft.leavesOfFields fields, base.Founded leaf)
    (extension : Extends store base) :
    Table.Fieldwise store.UnfoldsTo values (Draft.fieldTreesIn base fields) := by
  match fields, values with
  | [], [] => exact .nil
  | [], _ :: _ | _ :: _, [] => exact holds.elim
  | (key, field) :: rest, (present, value) :: remaining =>
      rw [Draft.leavesOfFields, List.forall_mem_append] at founded
      obtain ⟨rfl, first, others⟩ := holds
      exact .cons (Holds.unfoldsTo first founded.1 extension)
        (HoldsFields.unfoldsTo others founded.2 extension)

end

/-- A draft over values from which every path ends is placed as its tree, also in a store that has
grown since. -/
theorem unfoldsTo_place {base store : Store} (draft : Draft) (isCopy : draft.IsCopy)
    (founded : ∀ value ∈ draft.leaves, base.Founded value) (extension : Extends store base) :
    (store.place draft).2.UnfoldsTo (store.place draft).1 (draft.treeIn base) :=
  (holds_place draft isCopy ((Extends.refl _).retains store)).unfoldsTo founded
    ((extends_place store draft).trans extension)

end Store

end DocumentStore
