import DocumentStore.Proofs.Heap.Circles
import DocumentStore.Proofs.Heap.WellKeyed
import DocumentStore.Proofs.Number.Equality
import DocumentStore.Proofs.Table.KeyOrder

/-!
Contract: two values are equal exactly if they stand for the same.

Owns: what a tree stands for when it is compared, the trees that are equal to themselves, and the
values of a store with such trees.

Does not own: predicate trees.

What a tree stands for forgets the kinds of numbers, the order of fields, the offsets of moments that
have one, and whatever a blob holds. That two trees stand for the same is an equivalence, and so is
their equality where no comparison is refused: not-a-number and circles are equal to nothing.
-/

set_option autoImplicit false

namespace DocumentStore

/-! ### What trees stand for -/

/-- The place of a moment on the time line if its offset is known, and else the moment as it is. -/
def Calendar.Moment.place (moment : Calendar.Moment) : Int ⊕ Calendar.Moment :=
  match moment.offset with
  | some _ => .inl moment.instant
  | none => .inr moment

theorem Calendar.Moment.equal_iff_place {left right : Calendar.Moment} :
    left.equal right = true ↔ left.place = right.place := by
  unfold equal place
  cases left.offset <;> cases right.offset <;> simp

/-- What a value stands for when it is compared. Not-a-number is a number without a quantity. -/
inductive Meaning where
  | nothing
  | number (quantity : Option Quantity)
  | text (value : String)
  | bytes (content : Digest.Bytes)
  | moment (place : Int ⊕ Calendar.Moment)
  | blob (identity : Ref)
  | array (items : List Meaning)
  | object (fields : String → Option Meaning)
  | circle

namespace Tree

mutual

/-- What a tree stands for. -/
def meaning : Tree → Meaning
  | .null => .nothing
  | .boolean value => .number (Number.integer value.toInt).quantity?
  | .integer value => .number (Number.integer value).quantity?
  | .double value => .number (Number.double value).quantity?
  | .text value => .text value
  | .bytes content => .bytes content
  | .moment held => .moment held.place
  | .blob identity _ _ _ _ => .blob identity
  | .array items => .array (itemMeanings items)
  | .object fields => .object (fieldMeaning? fields)
  | .cycle _ _ => .circle

def itemMeanings : List Tree → List Meaning
  | [] => []
  | item :: rest => meaning item :: itemMeanings rest

def fieldMeaning? : List (String × Tree) → String → Option Meaning
  | [], _ => none
  | (present, value) :: rest, key => if present = key then some (meaning value) else fieldMeaning? rest key

end

theorem fieldMeaning?_eq (fields : List (String × Tree)) (key : String) :
    fieldMeaning? fields key = (Table.value? fields key).map meaning := by
  induction fields with
  | nil => rfl
  | cons field rest inductionHypothesis =>
      obtain ⟨present, value⟩ := field
      rw [fieldMeaning?, Table.value?, inductionHypothesis]
      split <;> rfl

mutual

/-- A tree that is equal to itself: it has no circle and not-a-number nowhere. -/
def Comparable : Tree → Prop
  | .double value => value ≠ .nan
  | .array items => ComparableItems items
  | .object fields => Table.Distinct fields ∧ ComparableFields fields
  | .cycle _ _ => False
  | _ => True

def ComparableItems : List Tree → Prop
  | [] => True
  | item :: rest => Comparable item ∧ ComparableItems rest

def ComparableFields : List (String × Tree) → Prop
  | [] => True
  | (_, value) :: rest => Comparable value ∧ ComparableFields rest

end

theorem comparableItems_iff {items : List Tree} :
    ComparableItems items ↔ ∀ item ∈ items, item.Comparable := by
  induction items with
  | nil => simp [ComparableItems]
  | cons item rest inductionHypothesis => simp [ComparableItems, inductionHypothesis]

theorem comparableFields_iff {fields : List (String × Tree)} :
    ComparableFields fields ↔ ∀ field ∈ fields, field.2.Comparable := by
  induction fields with
  | nil => simp [ComparableFields]
  | cons field rest inductionHypothesis =>
      obtain ⟨key, value⟩ := field
      simp [ComparableFields, inductionHypothesis]

/-! ### Equality -/

/-- What two objects stand for is the same if they have as many fields, and those of the first stand
for the same in the second. -/
theorem fieldMeaning?_eq_iff {fields others : List (String × Tree)} (distinct : Table.Distinct fields)
    (otherDistinct : Table.Distinct others) :
    fieldMeaning? fields = fieldMeaning? others
      ↔ fields.length = others.length
        ∧ ∀ field ∈ fields, fieldMeaning? others field.1 = some field.2.meaning := by
  have mapped : ∀ {fields : List (String × Tree)}, Table.Distinct fields →
      Table.Distinct (fields.map fun field => (field.1, field.2.meaning)) := by
    intro fields distinct
    rw [Table.Distinct, Table.keys, List.map_map]
    exact distinct
  have lookUps := Table.value?_eq_iff_length_eq_and (mapped distinct) (mapped otherDistinct)
  simp only [Table.value?_map, ← fieldMeaning?_eq, List.length_map, List.forall_mem_map] at lookUps
  rw [← lookUps, funext_iff]

mutual

/-- Two trees without circles and not-a-number are equal exactly if they stand for the same. -/
theorem equal_iff_meaning (left right : Tree) (comparable : left.Comparable)
    (otherComparable : right.Comparable) : left.equal right = true ↔ left.meaning = right.meaning := by
  cases left with
  | array items =>
      cases right with
      | array others =>
          rw [equal, meaning, meaning, Meaning.array.injEq]
          exact equalItems_iff_meanings items others comparable otherComparable
      | _ => simp [equal, meaning, number?]
  | object fields =>
      cases right with
      | object others =>
          rw [equal, meaning, meaning, Meaning.object.injEq, Bool.and_eq_true, beq_iff_eq,
            fieldMeaning?_eq_iff comparable.1 otherComparable.1,
            equalFields_iff_meanings fields others comparable.2 otherComparable.2]
      | _ => simp [equal, meaning, number?]
  | cycle => exact comparable.elim
  | double value =>
      have counts : (Number.double value).quantity? ≠ none := Double.quantity?_ne_none_iff.2 comparable
      cases right with
      | _ => simp [equal, meaning, number?, Number.equal_iff_of_counts counts]
  | integer value =>
      have counts : (Number.integer value).quantity? ≠ none := by simp [Number.quantity?]
      cases right with
      | _ => simp [equal, meaning, number?, Number.equal_iff_of_counts counts]
  | boolean value =>
      have counts : (Number.integer value.toInt).quantity? ≠ none := by simp [Number.quantity?]
      cases right with
      | _ => simp [equal, meaning, number?, Number.equal_iff_of_counts counts]
  | moment held =>
      cases right with
      | _ => simp [equal, meaning, number?, Calendar.Moment.equal_iff_place]
  | _ =>
      cases right with
      | _ => simp [equal, meaning, number?]

theorem equalItems_iff_meanings (items others : List Tree) (comparable : ComparableItems items)
    (otherComparable : ComparableItems others) :
    equalItems items others = true ↔ itemMeanings items = itemMeanings others := by
  cases items with
  | nil => cases others <;> simp [equalItems, itemMeanings]
  | cons item rest =>
      cases others with
      | nil => simp [equalItems, itemMeanings]
      | cons other remaining =>
          rw [equalItems, itemMeanings, itemMeanings, Bool.and_eq_true, List.cons.injEq,
            equal_iff_meaning item other comparable.1 otherComparable.1,
            equalItems_iff_meanings rest remaining comparable.2 otherComparable.2]

theorem equalFields_iff_meanings (fields others : List (String × Tree))
    (comparable : ComparableFields fields) (otherComparable : ComparableFields others) :
    equalFields fields others = true
      ↔ ∀ field ∈ fields, fieldMeaning? others field.1 = some field.2.meaning := by
  cases fields with
  | nil => simp [equalFields]
  | cons field rest =>
      obtain ⟨key, value⟩ := field
      have remaining := equalFields_iff_meanings rest others comparable.2 otherComparable
      rw [equalFields, Bool.and_eq_true, remaining, List.forall_mem_cons, fieldMeaning?_eq]
      refine and_congr_left' ?_
      cases found : Table.value? others key with
      | none => simp
      | some other =>
          have present := comparableFields_iff.1 otherComparable _ (Table.mem_of_value? found)
          rw [Option.map_some, Option.some.injEq, eq_comm (a := other.meaning)]
          exact equal_iff_meaning value other comparable.1 present

end

end Tree

/-! ### Values of a store -/

namespace Store

/-- All containers that a value reaches are there and lie in no circle, and it reaches not-a-number
nowhere. -/
structure Comparable (store : Store) (value : Value) : Prop where
  intact : store.Intact value
  noCircle : ¬store.Circular value
  noNan : ∀ inner, store.Reaches [value] inner → inner ≠ .double .nan

variable {store : Store} {value : Value}

theorem Comparable.founded (comparable : store.Comparable value) : store.Founded value :=
  founded_iff.2 ⟨comparable.intact, comparable.noCircle⟩

theorem comparable_of_scalar (scalar : ∀ ref, value ≠ .cell ref) (counts : value ≠ .double .nan) :
    store.Comparable value where
  intact := (Founded.scalar scalar).intact
  noCircle := (Founded.scalar scalar).not_circular
  noNan := fun _ reaches => (reaches.eq_of_scalar scalar) ▸ counts

theorem comparable_of_container {ref : Ref} {cell : Cell} (read : store.read? ref = some cell)
    (each : ∀ inner ∈ cell.values, store.Comparable inner) : store.Comparable (.cell ref) := by
  have founded : store.Founded (.cell ref) :=
    .container read fun inner member => (each inner member).founded
  refine ⟨founded.intact, founded.not_circular, fun inner reaches => ?_⟩
  rcases reaches.cell_cases with rfl | ⟨held, between, readHeld, member, further⟩
  · simp
  · cases read.symm.trans readHeld
    exact (each between member).noNan inner further

theorem Founded.comparable_unfold (founded : store.Founded value) (wellKeyed : store.WellKeyed)
    (noNan : ∀ inner, store.Reaches [value] inner → inner ≠ .double .nan) :
    (store.unfold value).Comparable := by
  induction founded with
  | @scalar value scalar =>
      have counts := noNan value (.self store value)
      rw [unfold_of_scalar scalar]
      cases value with
      | cell ref => exact absurd rfl (scalar ref)
      | double value => exact fun same => counts (congrArg Value.double same)
      | _ => exact trivial
  | @container ref cell read each inductionHypothesis =>
      have inside : ∀ inner ∈ cell.values, (store.unfold inner).Comparable :=
        fun inner member => inductionHypothesis inner member
          fun other reaches => noNan other (.ofInside read member reaches)
      rw [(Founded.container read each).unfold_eq read]
      cases cell with
      | array items =>
          refine Tree.comparableItems_iff.2 fun item member => ?_
          obtain ⟨value, listed, rfl⟩ := List.mem_map.1 member
          exact inside value listed
      | object fields =>
          refine ⟨?_, Tree.comparableFields_iff.2 fun field member => ?_⟩
          · rw [Table.Distinct, Table.keys, List.map_map]
            exact wellKeyed ref fields read
          · obtain ⟨held, listed, rfl⟩ := List.mem_map.1 member
            exact inside held.2 (List.mem_map_of_mem listed)
      | blob held => exact trivial

/-- Values without circles and not-a-number unfold to trees that are equal to themselves. -/
theorem Comparable.unfold (comparable : store.Comparable value) (wellKeyed : store.WellKeyed) :
    (store.unfold value).Comparable :=
  comparable.founded.comparable_unfold wellKeyed comparable.noNan

end Store

end DocumentStore
