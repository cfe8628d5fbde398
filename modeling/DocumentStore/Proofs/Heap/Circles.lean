import DocumentStore.Proofs.Heap.Territory

/-!
Contract: values that lie in no circle, and how they unfold.

Owns: circles of references, the values from which every path of references ends, and the equations
by which such values unfold. A path to a container plays no role for them.

Does not own: what is made of a circle that is met.

A path without repetitions has at most as many containers as there are cells. Where every path ends,
none repeats a container, so there is always a step left for the next one; where the steps run out,
the path has been everywhere, so its next container is one that it has met.
-/

set_option autoImplicit false

namespace DocumentStore

/-- The tree of a cell, given the trees of what is inside it. -/
def Cell.treeOf (ref : Ref) (inside : Value → Tree) : Cell → Tree
  | .array items => .array (items.map inside)
  | .object fields => .object (fields.map fun field => (field.1, inside field.2))
  | .blob held =>
      .blob ref (inside held.contentType) held.content (inside held.length) (inside held.digest)

theorem Cell.treeOf_congr {ref : Ref} {cell : Cell} {inside others : Value → Tree}
    (same : ∀ inner ∈ cell.values, inside inner = others inner) :
    cell.treeOf ref inside = cell.treeOf ref others := by
  cases cell with
  | array items => exact congrArg Tree.array (List.map_congr_left same)
  | object fields =>
      refine congrArg Tree.object (List.map_congr_left fun field member => ?_)
      rw [same field.2 (List.mem_map_of_mem member)]
  | blob held =>
      rw [treeOf, treeOf, same held.contentType (by simp [values]),
        same held.length (by simp [values]), same held.digest (by simp [values])]

namespace Store

variable {store : Store} {ref : Ref} {cell : Cell} {value inner : Value}

/-! ### Reaching -/

theorem Reaches.self (store : Store) (value : Value) : store.Reaches [value] value :=
  .kept (List.mem_singleton_self value)

theorem Reaches.trans {kept : List Value} {between : Value} (first : store.Reaches kept between)
    (second : store.Reaches [between] value) : store.Reaches kept value := by
  induction second with
  | kept member => rwa [List.mem_singleton.1 member]
  | inside _ read member above => exact above.inside read member

/-- What is inside a container is reached from it. -/
theorem Reaches.ofInside (read : store.read? ref = some cell) (member : inner ∈ cell.values)
    (reaches : store.Reaches [inner] value) : store.Reaches [.cell ref] value :=
  ((Reaches.self store (.cell ref)).inside read member).trans reaches

/-- What a container reaches is itself or reached from inside. -/
theorem Reaches.cell_cases (reaches : store.Reaches [.cell ref] value) :
    value = .cell ref ∨ ∃ cell inner, store.read? ref = some cell ∧ inner ∈ cell.values
      ∧ store.Reaches [inner] value := by
  induction reaches with
  | kept member => exact .inl (List.mem_singleton.1 member)
  | @inside _ _ value _ read member above =>
      right
      rcases above with same | ⟨outer, between, readOuter, memberOuter, reaches⟩
      · cases same
        exact ⟨_, value, read, member, .self store value⟩
      · exact ⟨outer, between, readOuter, memberOuter, reaches.inside read member⟩

theorem Reaches.eq_of_scalar (scalar : ∀ ref, value ≠ .cell ref)
    (reaches : store.Reaches [value] inner) : inner = value := by
  induction reaches with
  | kept member => exact List.mem_singleton.1 member
  | @inside ref _ _ _ _ _ above => exact absurd above.symm (scalar ref)

/-! ### Circles -/

/-- A container is reached from what is inside it. -/
def InCircle (store : Store) (ref : Ref) : Prop :=
  ∃ cell inner, store.read? ref = some cell ∧ inner ∈ cell.values
    ∧ store.Reaches [inner] (.cell ref)

/-- A value reaches a container that lies in a circle. -/
def Circular (store : Store) (value : Value) : Prop :=
  ∃ ref, store.Reaches [value] (.cell ref) ∧ store.InCircle ref

/-- All containers that a value reaches are there. -/
def Intact (store : Store) (value : Value) : Prop :=
  ∀ ref, store.Reaches [value] (.cell ref) → ref < store.size

theorem Intact.read (intact : store.Intact (.cell ref)) : ∃ cell, store.read? ref = some cell := by
  cases read : store.read? ref with
  | none => exact absurd (intact ref (.self store _)) (Nat.not_lt.2 (read?_eq_none_iff.1 read))
  | some cell => exact ⟨cell, rfl⟩

theorem Intact.inside (intact : store.Intact (.cell ref)) (read : store.read? ref = some cell)
    (member : inner ∈ cell.values) : store.Intact inner :=
  fun other reaches => intact other (.ofInside read member reaches)

theorem Intact.below (intact : store.Intact value) (reaches : store.Reaches [value] inner) :
    store.Intact inner :=
  fun ref further => intact ref (reaches.trans further)

theorem Intact.of_scalar (scalar : ∀ ref, value ≠ .cell ref) : store.Intact value :=
  fun ref reaches => absurd (reaches.eq_of_scalar scalar).symm (scalar ref)

/-- The containers that reach present ones only refer to each other only. -/
theorem closed_intact (store : Store) : store.Closed fun ref => store.Intact (.cell ref) where
  present := fun ref intact => intact ref (.self store _)
  inside := by
    rintro ref cell intact read value member inner rfl
    exact intact.inside read member

theorem Closed.intact {mine : Ref → Prop} (closed : store.Closed mine) (within : value.Within mine) :
    store.Intact value := by
  intro ref reaches
  have withinAll : ∀ kept ∈ [value], kept.Within mine := List.forall_mem_singleton.2 within
  exact closed.present ref (closed.reaches withinAll reaches ref rfl)

theorem Intact.of_extends {later : Store} (intact : store.Intact value)
    (extension : Extends later store) : later.Intact value := by
  apply (ChangesOnly.of_extends store.closed_intact extension).closed.intact
  rintro ref rfl
  exact intact

theorem Circular.ofInside (read : store.read? ref = some cell) (member : inner ∈ cell.values)
    (circular : store.Circular inner) : store.Circular (.cell ref) := by
  obtain ⟨other, reaches, inCircle⟩ := circular
  exact ⟨other, .ofInside read member reaches, inCircle⟩

/-- Every path of references from a value ends. -/
inductive Founded (store : Store) : Value → Prop where
  | scalar {value : Value} (scalar : ∀ ref, value ≠ .cell ref) : Founded store value
  | container {ref : Ref} {cell : Cell} (read : store.read? ref = some cell)
      (each : ∀ inner ∈ cell.values, Founded store inner) : Founded store (.cell ref)

namespace Founded

theorem inside (founded : store.Founded (.cell ref)) (read : store.read? ref = some cell) :
    ∀ inner ∈ cell.values, store.Founded inner := by
  cases founded with
  | scalar scalar => exact absurd rfl (scalar ref)
  | container readSame each =>
      cases read.symm.trans readSame
      exact each

theorem of_reaches (founded : store.Founded value) (reaches : store.Reaches [value] inner) :
    store.Founded inner := by
  induction reaches with
  | kept member => rwa [List.mem_singleton.1 member]
  | inside _ read member above => exact above.inside read _ member

theorem of_extends {later : Store} (founded : store.Founded value)
    (extension : Extends later store) : later.Founded value := by
  induction founded with
  | scalar scalar => exact .scalar scalar
  | container read _ inductionHypothesis =>
      exact .container (extension _ _ read) inductionHypothesis

theorem intact (founded : store.Founded value) : store.Intact value := by
  intro ref reaches
  cases founded.of_reaches reaches with
  | scalar scalar => exact absurd rfl (scalar ref)
  | container read => exact lt_size_of_read? read

theorem not_circular (founded : store.Founded value) : ¬store.Circular value := by
  induction founded with
  | scalar scalar =>
      rintro ⟨ref, reaches, _⟩
      exact scalar ref (reaches.eq_of_scalar scalar).symm
  | @container ref cell read each inductionHypothesis =>
      rintro ⟨other, reaches, inCircle⟩
      rcases reaches.cell_cases with same | ⟨held, inner, readHeld, member, reachesInner⟩
      · -- the circle starts at the container, so it comes by inside
        cases same
        obtain ⟨held, inner, readHeld, member, back⟩ := inCircle
        have within := read.symm.trans readHeld
        cases within
        exact inductionHypothesis inner member ⟨ref, back, cell, inner, readHeld, member, back⟩
      · cases read.symm.trans readHeld
        exact inductionHypothesis inner member ⟨other, reachesInner, inCircle⟩

theorem not_reaches (founded : store.Founded (.cell ref)) (read : store.read? ref = some cell)
    (member : inner ∈ cell.values) : ¬store.Reaches [inner] (.cell ref) := by
  intro back
  exact founded.not_circular ⟨ref, .self store _, cell, inner, read, member, back⟩

end Founded

/-! ### Paths -/

/-- The containers of a path come once each and are there. -/
structure IsPath (store : Store) (path : List Ref) : Prop where
  nodup : path.Nodup
  present : ∀ ref ∈ path, ref < store.size

namespace IsPath

variable {path : List Ref}

theorem nil (store : Store) : store.IsPath [] :=
  ⟨List.nodup_nil, fun _ member => absurd member List.not_mem_nil⟩

theorem cons (isPath : store.IsPath path) (fresh : ref ∉ path) (present : ref < store.size) :
    store.IsPath (ref :: path) :=
  ⟨List.nodup_cons.2 ⟨fresh, isPath.nodup⟩, List.forall_mem_cons.2 ⟨present, isPath.present⟩⟩

theorem length_le (isPath : store.IsPath path) : path.length ≤ store.size := by
  have bounded : path ⊆ List.range store.size :=
    fun ref member => List.mem_range.2 (isPath.present ref member)
  have counted := (List.subperm_of_subset isPath.nodup bounded).length_le
  rwa [List.length_range] at counted

/-- A container that a path has not met leaves a step for itself. -/
theorem length_lt (isPath : store.IsPath path) (fresh : ref ∉ path) (present : ref < store.size) :
    path.length < store.size :=
  (isPath.cons fresh present).length_le

end IsPath

/-- Every container of a path reaches a value from inside. -/
def Encloses (store : Store) (path : List Ref) (value : Value) : Prop :=
  ∀ outer ∈ path, ∃ cell inner, store.read? outer = some cell ∧ inner ∈ cell.values
    ∧ store.Reaches [inner] value

theorem Encloses.enter {path : List Ref} (encloses : store.Encloses path (.cell ref))
    (read : store.read? ref = some cell) (member : inner ∈ cell.values) :
    store.Encloses (ref :: path) inner := by
  rintro outer (_ | ⟨_, earlier⟩)
  · exact ⟨cell, inner, read, member, .self store inner⟩
  · obtain ⟨held, between, readHeld, memberHeld, reaches⟩ := encloses outer earlier
    exact ⟨held, between, readHeld, memberHeld, reaches.inside read member⟩

theorem Encloses.fresh {path : List Ref} (encloses : store.Encloses path (.cell ref))
    (noCircle : ¬store.Circular (.cell ref)) : ref ∉ path :=
  fun member => noCircle ⟨ref, .self store _, encloses ref member⟩

theorem founded_below_path {left : Nat} {path : List Ref} (isPath : store.IsPath path)
    (enough : store.size ≤ left + path.length) (encloses : store.Encloses path value)
    (intact : store.Intact value) (noCircle : ¬store.Circular value) : store.Founded value := by
  induction left generalizing path value with
  | zero =>
      cases value with
      | cell ref =>
          have shorter := isPath.length_lt (encloses.fresh noCircle) (intact ref (.self store _))
          omega
      | _ => exact .scalar (by simp)
  | succ left inductionHypothesis =>
      cases value with
      | cell ref =>
          obtain ⟨cell, read⟩ := intact.read
          refine .container read fun inner member => ?_
          apply inductionHypothesis
          · exact isPath.cons (encloses.fresh noCircle) (lt_size_of_read? read)
          · rw [List.length_cons]
            omega
          · exact encloses.enter read member
          · exact intact.inside read member
          · exact fun circular => noCircle (circular.ofInside read member)
      | _ => exact .scalar (by simp)

/-- Every path from a value ends exactly if its containers are there and none lies in a circle. -/
theorem founded_iff :
    store.Founded value ↔ store.Intact value ∧ ¬store.Circular value :=
  ⟨fun founded => ⟨founded.intact, founded.not_circular⟩,
    fun both => founded_below_path (.nil store) (Nat.le_add_right _ _)
      (fun _ member => absurd member List.not_mem_nil) both.1 both.2⟩

/-! ### Unfolding without circles -/

/-- A value that is no container is unfolded without any step. -/
theorem unfoldWithin_of_scalar (scalar : ∀ ref, value ≠ .cell ref) (steps : Nat) (path : List Ref) :
    store.unfoldWithin true steps path value = store.unfoldWithin true 0 [] value := by
  cases value with
  | cell ref => exact absurd rfl (scalar ref)
  | _ => cases steps <;> rfl

theorem unfold_of_scalar (scalar : ∀ ref, value ≠ .cell ref) :
    store.unfold value = store.unfoldWithin true 0 [] value :=
  unfoldWithin_of_scalar scalar store.size []

/-- One step of unfolding. -/
theorem unfoldWithin_of_fresh {path : List Ref} (steps : Nat) (fresh : ref ∉ path)
    (read : store.read? ref = some cell) :
    store.unfoldWithin true (steps + 1) path (.cell ref) =
      cell.treeOf ref (store.unfoldWithin true steps (ref :: path)) := by
  rw [unfoldWithin, if_neg fresh, read]
  cases cell <;> rfl

/-- A path leads to a value and has enough steps left for everything below. -/
structure LeadsTo (store : Store) (value : Value) (steps : Nat) (path : List Ref) : Prop
    extends store.IsPath path where
  past : ∀ ref ∈ path, ¬store.Reaches [value] (.cell ref)
  enough : store.size ≤ steps + path.length

theorem LeadsTo.start (store : Store) (value : Value) : store.LeadsTo value store.size [] where
  toIsPath := .nil store
  past := fun _ member => absurd member List.not_mem_nil
  enough := Nat.le_add_right _ _

/-- From a container a path leads on to everything inside. -/
theorem LeadsTo.enter {steps : Nat} {path : List Ref} (leads : store.LeadsTo (.cell ref) steps path)
    (founded : store.Founded (.cell ref)) (read : store.read? ref = some cell) :
    ∃ fewer, steps = fewer + 1 ∧ ref ∉ path
      ∧ ∀ inner ∈ cell.values, store.LeadsTo inner fewer (ref :: path) := by
  have fresh : ref ∉ path := fun member => leads.past ref member (.self store _)
  have present := lt_size_of_read? read
  have shorter := leads.length_lt fresh present
  have enough := leads.enough
  refine ⟨steps - 1, by omega, fresh, fun inner member => ?_⟩
  refine ⟨leads.toIsPath.cons fresh present, ?_, by rw [List.length_cons]; omega⟩
  refine List.forall_mem_cons.2 ⟨founded.not_reaches read member, fun outer earlier reaches => ?_⟩
  exact leads.past outer earlier (.ofInside read member reaches)

namespace Founded

/-- Where every path ends, a value unfolds to the same tree below all paths that lead to it. -/
theorem unfoldWithin_eq (founded : store.Founded value) {steps others : Nat}
    {path other : List Ref} (leads : store.LeadsTo value steps path)
    (leadsToo : store.LeadsTo value others other) :
    store.unfoldWithin true steps path value = store.unfoldWithin true others other value := by
  induction founded generalizing steps others path other with
  | scalar scalar => rw [unfoldWithin_of_scalar scalar steps, unfoldWithin_of_scalar scalar others]
  | @container ref cell read each inductionHypothesis =>
      have founded := Founded.container read each
      obtain ⟨steps, rfl, fresh, inside⟩ := leads.enter founded read
      obtain ⟨others, rfl, freshToo, insideToo⟩ := leadsToo.enter founded read
      rw [unfoldWithin_of_fresh steps fresh read, unfoldWithin_of_fresh others freshToo read]
      exact Cell.treeOf_congr fun inner member =>
        inductionHypothesis inner member (inside inner member) (insideToo inner member)

/-- Inside a container everything unfolds as it does alone. -/
theorem unfold_eq (founded : store.Founded (.cell ref)) (read : store.read? ref = some cell) :
    store.unfold (.cell ref) = cell.treeOf ref store.unfold := by
  obtain ⟨fewer, size, fresh, inside⟩ := (LeadsTo.start store (.cell ref)).enter founded read
  rw [unfold, size, unfoldWithin_of_fresh fewer fresh read]
  exact Cell.treeOf_congr fun inner member =>
    (founded.inside read inner member).unfoldWithin_eq (inside inner member) (.start store inner)

/-- What is allocated later changes nothing of a value from which every path ends. -/
theorem unfold_of_extends {later : Store} (founded : store.Founded value)
    (extension : Extends later store) : later.unfold value = store.unfold value := by
  induction founded with
  | @scalar value scalar =>
      rw [unfold_of_scalar scalar, unfold_of_scalar scalar]
      cases value with
      | cell ref => exact absurd rfl (scalar ref)
      | _ => rfl
  | @container ref cell read each inductionHypothesis =>
      have founded := Founded.container read each
      rw [founded.unfold_eq read, (founded.of_extends extension).unfold_eq (extension _ _ read)]
      exact Cell.treeOf_congr inductionHypothesis

end Founded

/-! ### Steps -/

/-- The number of steps is never what ends a path: a value whose containers are there unfolds to
the same tree with more of them. -/
theorem unfoldWithin_of_more_steps {path : List Ref} {steps : Nat} (intact : store.Intact value)
    (isPath : store.IsPath path) (enough : store.size ≤ steps + path.length) (more : Nat) :
    store.unfoldWithin true (steps + more) path value = store.unfoldWithin true steps path value := by
  induction steps generalizing path value with
  | zero =>
      cases value with
      | cell ref =>
          -- the path has been everywhere
          have met : ref ∈ path := Classical.byContradiction fun fresh => by
            have shorter := isPath.length_lt fresh (intact ref (.self store _))
            omega
          cases more with
          | zero => rfl
          | succ more =>
              rw [Nat.zero_add, unfoldWithin, unfoldWithin, if_pos met]
      | _ => cases more <;> rfl
  | succ steps inductionHypothesis =>
      rw [Nat.succ_add]
      cases value with
      | cell ref =>
          by_cases met : ref ∈ path
          · rw [unfoldWithin, if_pos met, unfoldWithin, if_pos met]
          · obtain ⟨cell, read⟩ := intact.read
            have present := lt_size_of_read? read
            rw [unfoldWithin_of_fresh _ met read, unfoldWithin_of_fresh _ met read]
            refine Cell.treeOf_congr fun inner member => ?_
            refine inductionHypothesis (intact.inside read member) (isPath.cons met present) ?_
            rw [List.length_cons]
            omega
      | _ => rfl

end Store

end DocumentStore
