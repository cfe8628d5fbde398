import DocumentStore.Proofs.Heap.Circles
import DocumentStore.Proofs.Heap.Mutation
import DocumentStore.Proofs.Table.Fieldwise

/-!
Contract: a copy of a value stays what it was.

Owns: the drafts that copies are made from, the values that are such copies in cells nobody else
gets to, the copy that is made of a copy, and what changes of other cells leave of it.

Does not own: what is copied. A blob is taken over as it is, and a value that stands inside itself
has no copy.

A copy is allocated from the inside out, so every container of it is above what it refers to. This
bounds the path into the copy: no container comes twice, and there are enough steps.
-/

set_option autoImplicit false

namespace DocumentStore

/-! ### Drafts of copies -/

namespace Draft

mutual

/-- A draft of values, arrays and objects, and no object of it repeats a key. -/
def IsCopy : Draft → Prop
  | .value _ => True
  | .array items => IsCopyItems items
  | .object fields => Table.Distinct fields ∧ IsCopyFields fields
  | .blob .. => False

def IsCopyItems : List Draft → Prop
  | [] => True
  | item :: rest => IsCopy item ∧ IsCopyItems rest

def IsCopyFields : List (String × Draft) → Prop
  | [] => True
  | (_, field) :: rest => IsCopy field ∧ IsCopyFields rest

end

end Draft

namespace Tree

theorem copyItems?_eq_some {trees : List Tree} {drafts : List Draft}
    (copied : copyItems? trees = some drafts) :
    List.Forall₂ (fun tree draft => tree.copy? = some draft) trees drafts := by
  induction trees generalizing drafts with
  | nil =>
      cases copied
      exact .nil
  | cons tree rest inductionHypothesis =>
      obtain ⟨copy, first, continued⟩ := Option.bind_eq_some_iff.1 copied
      obtain ⟨copies, others, same⟩ := Option.bind_eq_some_iff.1 continued
      cases same
      exact .cons first (inductionHypothesis others)

theorem copyFields?_eq_some {fields : List (String × Tree)} {drafts : List (String × Draft)}
    (copied : copyFields? fields = some drafts) :
    Table.Fieldwise (fun tree draft => tree.copy? = some draft) fields drafts := by
  induction fields generalizing drafts with
  | nil =>
      cases copied
      exact .nil
  | cons field rest inductionHypothesis =>
      obtain ⟨key, tree⟩ := field
      obtain ⟨copy, first, continued⟩ := Option.bind_eq_some_iff.1 copied
      obtain ⟨copies, others, same⟩ := Option.bind_eq_some_iff.1 continued
      cases same
      exact .cons first (inductionHypothesis others)

end Tree

namespace Store

/-! ### Copies -/

/-- Blobs never change. -/
def KeepsBlobs (before after : Store) : Prop :=
  ∀ ref held, before.read? ref = some (.blob held) → after.read? ref = some (.blob held)

theorem KeepsBlobs.of_extends {before after : Store} (extension : Extends after before) :
    before.KeepsBlobs after :=
  fun ref _ read => extension ref _ read

mutual

/-- A value is a copy whose containers lie below a bound, and none of them is among some cells. Each
container lies above what it refers to. -/
inductive Copied (store : Store) (mine : Ref → Prop) : Nat → Value → Draft → Prop where
  | scalar {bound : Nat} {value : Value} (scalar : ∀ ref, value ≠ .cell ref) :
      Copied store mine bound value (.value value)
  | blob {bound ref : Nat} {held : Blob} (read : store.read? ref = some (.blob held))
      (below : ref < bound) : Copied store mine bound (.cell ref) (.value (.cell ref))
  | array {bound ref : Nat} {items : List Value} {drafts : List Draft}
      (read : store.read? ref = some (.array items)) (foreign : ¬mine ref) (below : ref < bound)
      (each : CopiedItems store mine ref items drafts) :
      Copied store mine bound (.cell ref) (.array drafts)
  | object {bound ref : Nat} {fields : Table String Value} {drafts : List (String × Draft)}
      (read : store.read? ref = some (.object fields)) (foreign : ¬mine ref) (below : ref < bound)
      (each : CopiedFields store mine ref fields drafts) :
      Copied store mine bound (.cell ref) (.object drafts)

inductive CopiedItems (store : Store) (mine : Ref → Prop) :
    Nat → List Value → List Draft → Prop where
  | nil (bound : Nat) : CopiedItems store mine bound [] []
  | cons {bound : Nat} {item : Value} {draft : Draft} {rest : List Value} {others : List Draft}
      (first : Copied store mine bound item draft)
      (remaining : CopiedItems store mine bound rest others) :
      CopiedItems store mine bound (item :: rest) (draft :: others)

inductive CopiedFields (store : Store) (mine : Ref → Prop) :
    Nat → List (String × Value) → List (String × Draft) → Prop where
  | nil (bound : Nat) : CopiedFields store mine bound [] []
  | cons {bound : Nat} {key : String} {value : Value} {draft : Draft}
      {rest : List (String × Value)} {others : List (String × Draft)}
      (first : Copied store mine bound value draft)
      (remaining : CopiedFields store mine bound rest others) :
      CopiedFields store mine bound ((key, value) :: rest) ((key, draft) :: others)

end

section Copied

variable {store after : Store} {mine grown : Ref → Prop}

mutual

/-- The copy of a copy is made from the same draft. -/
theorem Copied.copy?_unfoldWithin {bound : Nat} {value : Value} {draft : Draft}
    (copied : store.Copied mine bound value draft) {steps : Nat} {path : List Ref}
    (enough : bound ≤ steps) (outside : ∀ ref ∈ path, bound ≤ ref) :
    (store.unfoldWithin true steps path value).copy? = some draft := by
  -- what lies below the bound is not on the path, and there is a step left for it
  have enter : ∀ ref, ref < bound → ref ∉ path ∧ ∃ fewer, steps = fewer + 1 ∧ ref ≤ fewer := by
    intro ref below
    refine ⟨fun member => ?_, steps - 1, by omega, by omega⟩
    have above := outside ref member
    omega
  have outsideInner : ∀ ref, ref < bound → ∀ other ∈ ref :: path, ref ≤ other := by
    intro ref below other member
    rcases List.mem_cons.1 member with rfl | outer
    · exact Nat.le_refl _
    · exact Nat.le_trans (Nat.le_of_lt below) (outside other outer)
  cases copied with
  | scalar scalar =>
      cases value with
      | cell ref => exact absurd rfl (scalar ref)
      | _ => cases steps <;> rfl
  | @blob bound ref held read below =>
      obtain ⟨fresh, steps, rfl, _⟩ := enter ref below
      rw [unfoldWithin, if_neg fresh, read]
      rfl
  | @array bound ref items drafts read foreign below each =>
      obtain ⟨fresh, steps, rfl, left⟩ := enter ref below
      have inner := each.copyItems?_unfoldWithin left (outsideInner ref below)
      rw [unfoldWithin_array true steps fresh read, Tree.copy?, inner]
      rfl
  | @object bound ref fields drafts read foreign below each =>
      obtain ⟨fresh, steps, rfl, left⟩ := enter ref below
      have inner := each.copyFields?_unfoldWithin left (outsideInner ref below)
      rw [unfoldWithin_object true steps fresh read, Tree.copy?, inner]
      rfl

theorem CopiedItems.copyItems?_unfoldWithin {bound : Nat} {items : List Value} {drafts : List Draft}
    (copied : store.CopiedItems mine bound items drafts) {steps : Nat} {path : List Ref}
    (enough : bound ≤ steps) (outside : ∀ ref ∈ path, bound ≤ ref) :
    Tree.copyItems? (items.map (store.unfoldWithin true steps path)) = some drafts := by
  cases copied with
  | nil => rfl
  | cons first remaining =>
      rw [List.map_cons, Tree.copyItems?, first.copy?_unfoldWithin enough outside,
        remaining.copyItems?_unfoldWithin enough outside]
      rfl

theorem CopiedFields.copyFields?_unfoldWithin {bound : Nat} {fields : List (String × Value)}
    {drafts : List (String × Draft)} (copied : store.CopiedFields mine bound fields drafts)
    {steps : Nat} {path : List Ref} (enough : bound ≤ steps)
    (outside : ∀ ref ∈ path, bound ≤ ref) :
    Tree.copyFields? (fields.map fun field =>
      (field.1, store.unfoldWithin true steps path field.2)) = some drafts := by
  cases copied with
  | nil => rfl
  | cons first remaining =>
      rw [List.map_cons, Tree.copyFields?, first.copy?_unfoldWithin enough outside,
        remaining.copyFields?_unfoldWithin enough outside]
      rfl

end

/-- In a store that has all cells of a copy, its own copy is made from the same draft. -/
theorem Copied.copy?_unfold {bound : Nat} {value : Value} {draft : Draft}
    (copied : store.Copied mine bound value draft) (present : bound ≤ store.size) :
    (store.unfold value).copy? = some draft :=
  copied.copy?_unfoldWithin present fun _ member => absurd member List.not_mem_nil

theorem Copied.mono {bound wider : Nat} {value : Value} {draft : Draft}
    (copied : store.Copied mine bound value draft) (wide : bound ≤ wider) :
    store.Copied mine wider value draft := by
  cases copied with
  | scalar scalar => exact .scalar scalar
  | blob read below => exact .blob read (Nat.lt_of_lt_of_le below wide)
  | array read foreign below each =>
      exact .array read foreign (Nat.lt_of_lt_of_le below wide) each
  | object read foreign below each =>
      exact .object read foreign (Nat.lt_of_lt_of_le below wide) each

/-! ### Changes of other cells -/

mutual

/-- Whoever gets to none of its containers leaves a copy as it is. -/
theorem Copied.of_changesOnly {bound : Nat} {value : Value} {draft : Draft}
    (copied : store.Copied mine bound value draft) (changes : store.ChangesOnly after mine grown)
    (blobs : store.KeepsBlobs after) (present : bound ≤ store.size) :
    after.Copied grown bound value draft := by
  cases copied with
  | scalar scalar => exact .scalar scalar
  | blob read below => exact .blob (blobs _ _ read) below
  | array read foreign below each =>
      have old := Nat.lt_of_lt_of_le below present
      have same := changes.others _ foreign old
      exact .array (same.trans read) (changes.foreign foreign old) below
        (each.of_changesOnly changes blobs (Nat.le_of_lt old))
  | object read foreign below each =>
      have old := Nat.lt_of_lt_of_le below present
      have same := changes.others _ foreign old
      exact .object (same.trans read) (changes.foreign foreign old) below
        (each.of_changesOnly changes blobs (Nat.le_of_lt old))

theorem CopiedItems.of_changesOnly {bound : Nat} {items : List Value} {drafts : List Draft}
    (copied : store.CopiedItems mine bound items drafts)
    (changes : store.ChangesOnly after mine grown) (blobs : store.KeepsBlobs after)
    (present : bound ≤ store.size) : after.CopiedItems grown bound items drafts := by
  cases copied with
  | nil => exact .nil bound
  | cons first remaining =>
      exact .cons (first.of_changesOnly changes blobs present)
        (remaining.of_changesOnly changes blobs present)

theorem CopiedFields.of_changesOnly {bound : Nat} {fields : List (String × Value)}
    {drafts : List (String × Draft)} (copied : store.CopiedFields mine bound fields drafts)
    (changes : store.ChangesOnly after mine grown) (blobs : store.KeepsBlobs after)
    (present : bound ≤ store.size) : after.CopiedFields grown bound fields drafts := by
  cases copied with
  | nil => exact .nil bound
  | cons first remaining =>
      exact .cons (first.of_changesOnly changes blobs present)
        (remaining.of_changesOnly changes blobs present)

end

end Copied

/-! ### Placing a copy -/

/-- All cells among some values are blobs. -/
def OnlyBlobs (store : Store) (values : List Value) : Prop :=
  ∀ ref, .cell ref ∈ values → ∃ held, store.read? ref = some (.blob held)

theorem OnlyBlobs.of_extends {store later : Store} {values : List Value}
    (blobs : store.OnlyBlobs values) (extension : Extends later store) :
    later.OnlyBlobs values := by
  intro ref member
  obtain ⟨held, read⟩ := blobs ref member
  exact ⟨held, extension ref _ read⟩

theorem OnlyBlobs.append {store : Store} {first others : List Value}
    (blobs : store.OnlyBlobs (first ++ others)) : store.OnlyBlobs first ∧ store.OnlyBlobs others :=
  ⟨fun ref member => blobs ref (List.mem_append_left _ member),
    fun ref member => blobs ref (List.mem_append_right _ member)⟩

section Placing

variable {mine : Ref → Prop}

mutual

/-- A draft of a copy over blobs is placed as a copy, all of whose containers are new. -/
theorem copied_place {store later : Store} (draft : Draft) (isCopy : draft.IsCopy)
    (blobs : store.OnlyBlobs draft.leaves) (present : ∀ ref, mine ref → ref < store.size)
    (extension : Extends later (store.place draft).2) :
    later.Copied mine (store.place draft).2.size (store.place draft).1 draft := by
  cases draft with
  | value value =>
      cases value with
      | cell ref =>
          obtain ⟨held, read⟩ := blobs ref (List.mem_singleton_self _)
          exact .blob (extension ref _ read) (lt_size_of_read? read)
      | _ => exact .scalar (by rintro ref ⟨⟩)
  | array items =>
      have grown := (extends_placeItems store items).size_le
      have read := extension _ _ (read?_allocate_self (store.placeItems items).2
        (.array (store.placeItems items).1))
      have each := copied_placeItems items isCopy blobs present
        (extension.trans (.allocate _ _))
      apply Copied.array read ?_ (lt_size_of_read? (read?_allocate_self _ _)) each
      exact fun owned => Nat.lt_irrefl _ (Nat.lt_of_lt_of_le (present _ owned) grown)
  | object fields =>
      have grown := (extends_placeFields store fields).size_le
      have distinct : Table.Distinct (store.placeFields fields).1 := by
        rw [Table.Distinct, keys_placeFields_of_drafts]
        exact isCopy.1
      have read := extension _ _ (read?_allocate_self (store.placeFields fields).2
        (.object (Table.ofEntries (store.placeFields fields).1)))
      have each := copied_placeFields fields isCopy.2 blobs present
        (extension.trans (.allocate _ _))
      rw [← Table.ofEntries_eq_self distinct] at each
      apply Copied.object read ?_ (lt_size_of_read? (read?_allocate_self _ _)) each
      exact fun owned => Nat.lt_irrefl _ (Nat.lt_of_lt_of_le (present _ owned) grown)
  | blob => exact isCopy.elim

theorem copied_placeItems {store later : Store} (items : List Draft)
    (isCopy : Draft.IsCopyItems items) (blobs : store.OnlyBlobs (Draft.leavesOfItems items))
    (present : ∀ ref, mine ref → ref < store.size)
    (extension : Extends later (store.placeItems items).2) :
    later.CopiedItems mine (store.placeItems items).2.size (store.placeItems items).1 items := by
  cases items with
  | nil => exact .nil _
  | cons item rest =>
      have blobs := OnlyBlobs.append blobs
      have growing := extends_place store item
      have growingOn := extends_placeItems (store.place item).2 rest
      have first := copied_place item isCopy.1 blobs.1 present (extension.trans growingOn)
      apply CopiedItems.cons (first.mono growingOn.size_le)
      exact copied_placeItems rest isCopy.2 (blobs.2.of_extends growing)
        (fun ref owned => Nat.lt_of_lt_of_le (present ref owned) growing.size_le) extension

theorem copied_placeFields {store later : Store} (fields : List (String × Draft))
    (isCopy : Draft.IsCopyFields fields) (blobs : store.OnlyBlobs (Draft.leavesOfFields fields))
    (present : ∀ ref, mine ref → ref < store.size)
    (extension : Extends later (store.placeFields fields).2) :
    later.CopiedFields mine (store.placeFields fields).2.size (store.placeFields fields).1
      fields := by
  cases fields with
  | nil => exact .nil _
  | cons field rest =>
      obtain ⟨key, field⟩ := field
      have blobs := OnlyBlobs.append blobs
      have growing := extends_place store field
      have growingOn := extends_placeFields (store.place field).2 rest
      have first := copied_place field isCopy.1 blobs.1 present (extension.trans growingOn)
      apply CopiedFields.cons (first.mono growingOn.size_le)
      exact copied_placeFields rest isCopy.2 (blobs.2.of_extends growing)
        (fun ref owned => Nat.lt_of_lt_of_le (present ref owned) growing.size_le) extension

end

end Placing

end Store

/-! ### What a copy is built from -/

namespace Store

/-- A draft is one of a copy, and all it takes over from a value as it is are blobs. -/
structure SharesOnlyBlobs (store : Store) (value : Value) (draft : Draft) : Prop where
  isCopy : draft.IsCopy
  reached : ∀ ref, .cell ref ∈ draft.leaves → store.Reaches [value] (.cell ref)
  blobs : store.OnlyBlobs draft.leaves

namespace SharesOnlyBlobs

variable {store : Store} {ref : Ref}

theorem scalar {value leaf : Value} (scalar : ∀ ref, leaf ≠ .cell ref) :
    store.SharesOnlyBlobs value (.value leaf) where
  isCopy := trivial
  reached := fun ref member => absurd (List.mem_singleton.1 member).symm (scalar ref)
  blobs := fun ref member => absurd (List.mem_singleton.1 member).symm (scalar ref)

theorem blob {held : Blob} (read : store.read? ref = some (.blob held)) :
    store.SharesOnlyBlobs (.cell ref) (.value (.cell ref)) where
  isCopy := trivial
  reached := by
    intro other member
    rw [List.mem_singleton.1 member]
    exact .self store (.cell ref)
  blobs := by
    intro other member
    cases List.mem_singleton.1 member
    exact ⟨held, read⟩

theorem array {items : List Value} {drafts : List Draft}
    (read : store.read? ref = some (.array items))
    (each : List.Forall₂ store.SharesOnlyBlobs items drafts) :
    store.SharesOnlyBlobs (.cell ref) (.array drafts) := by
  have inside : Draft.IsCopyItems drafts ∧ ∀ other, .cell other ∈ Draft.leavesOfItems drafts →
      (∃ item ∈ items, store.Reaches [item] (.cell other))
        ∧ ∃ held, store.read? other = some (.blob held) := by
    clear read
    induction each with
    | nil => exact ⟨trivial, fun _ member => nomatch member⟩
    | @cons item draft rest others first _ inductionHypothesis =>
        refine ⟨⟨first.isCopy, inductionHypothesis.1⟩, fun other member => ?_⟩
        rcases List.mem_append.1 member with here | later
        · exact ⟨⟨item, List.mem_cons_self, first.reached other here⟩, first.blobs other here⟩
        · obtain ⟨⟨item, listed, reaches⟩, held⟩ := inductionHypothesis.2 other later
          exact ⟨⟨item, List.mem_cons_of_mem _ listed, reaches⟩, held⟩
  refine ⟨inside.1, fun other member => ?_, fun other member => (inside.2 other member).2⟩
  obtain ⟨item, listed, reaches⟩ := (inside.2 other member).1
  exact .ofInside read listed reaches

theorem object {fields : Table String Value} {drafts : List (String × Draft)}
    (read : store.read? ref = some (.object fields)) (distinct : Table.Distinct fields)
    (each : Table.Fieldwise store.SharesOnlyBlobs fields drafts) :
    store.SharesOnlyBlobs (.cell ref) (.object drafts) := by
  have inside : Draft.IsCopyFields drafts ∧ ∀ other, .cell other ∈ Draft.leavesOfFields drafts →
      (∃ value ∈ (Cell.object fields).values, store.Reaches [value] (.cell other))
        ∧ ∃ held, store.read? other = some (.blob held) := by
    clear read distinct
    induction each with
    | nil => exact ⟨trivial, fun _ member => nomatch member⟩
    | @cons key value draft rest others first _ inductionHypothesis =>
        refine ⟨⟨first.isCopy, inductionHypothesis.1⟩, fun other member => ?_⟩
        rcases List.mem_append.1 member with here | later
        · exact ⟨⟨value, List.mem_cons_self, first.reached other here⟩, first.blobs other here⟩
        · obtain ⟨⟨value, listed, reaches⟩, held⟩ := inductionHypothesis.2 other later
          exact ⟨⟨value, List.mem_cons_of_mem _ listed, reaches⟩, held⟩
  refine ⟨⟨each.distinct distinct, inside.1⟩, fun other member => ?_,
    fun other member => (inside.2 other member).2⟩
  obtain ⟨value, listed, reaches⟩ := (inside.2 other member).1
  exact .ofInside read listed reaches

theorem within {mine : Ref → Prop} {value : Value} {draft : Draft}
    (shares : store.SharesOnlyBlobs value draft) (closed : store.Closed mine)
    (within : value.Within mine) : ∀ leaf ∈ draft.leaves, leaf.Within mine := by
  rintro leaf member ref rfl
  exact closed.reaches (List.forall_mem_singleton.2 within) (shares.reached ref member) ref rfl

end SharesOnlyBlobs

variable {store : Store}

theorem sharesOnlyBlobs_of_copy?_unfoldWithin (wellKeyed : store.WellKeyed) {steps : Nat}
    {path : List Ref} {value : Value} {draft : Draft}
    (copied : (store.unfoldWithin true steps path value).copy? = some draft) :
    store.SharesOnlyBlobs value draft := by
  induction steps generalizing path value draft with
  | zero =>
      cases value <;> cases copied
      all_goals exact .scalar (by rintro ref ⟨⟩)
  | succ steps inductionHypothesis =>
      cases value with
      | cell ref =>
          rw [unfoldWithin] at copied
          split at copied
          · cases copied
          · split at copied
            · next items read =>
                obtain ⟨drafts, each, rfl⟩ := Option.map_eq_some_iff.1 copied
                have each := List.forall₂_map_left_iff.1 (Tree.copyItems?_eq_some each)
                exact .array read (each.imp fun _ _ copied => inductionHypothesis copied)
            · next fields read =>
                obtain ⟨drafts, each, rfl⟩ := Option.map_eq_some_iff.1 copied
                have each := (Table.Fieldwise.map _ fields).comp (Tree.copyFields?_eq_some each)
                apply SharesOnlyBlobs.object read (wellKeyed ref fields read)
                apply each.mono
                rintro value draft ⟨tree, rfl, copied⟩
                exact inductionHypothesis copied
            · next held read =>
                cases copied
                exact .blob read
            · cases copied
              exact .scalar (by rintro ref ⟨⟩)
      | _ =>
          cases copied
          exact .scalar (by rintro ref ⟨⟩)

/-- The copy of a value takes over its blobs, and copies everything else. -/
theorem sharesOnlyBlobs_of_copy? (wellKeyed : store.WellKeyed) {value : Value} {draft : Draft}
    (copied : (store.unfold value).copy? = some draft) : store.SharesOnlyBlobs value draft :=
  sharesOnlyBlobs_of_copy?_unfoldWithin wellKeyed copied

end Store

/-! ### Changes by callers -/

namespace Mutation

/-- A change of a container that is no blob leaves all blobs as they are. -/
theorem keepsBlobs (mutation : Mutation) {store : Store}
    (container : ∀ held, store.read? mutation.target ≠ some (.blob held)) :
    store.KeepsBlobs (mutation.apply store) := by
  intro ref held read
  have different : ref ≠ mutation.target := by
    rintro rfl
    exact container held read
  rw [(mutation.spares store).others ref different (Store.lt_size_of_read? read)]
  exact read

end Mutation

end DocumentStore
