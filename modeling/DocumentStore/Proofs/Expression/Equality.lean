import DocumentStore.Proofs.Expression.Canonical
import DocumentStore.Proofs.Expression.Sense
import DocumentStore.Proofs.Heap.Drafts
import DocumentStore.Proofs.Calendar.Accuracy

/-!
Contract: equal predicate trees are rendered as equal values, or neither of them is rendered.

Owns: drafts that stand for the same, renderings of trees that stand for the same, and from them the
soundness of equality.

Does not own: which trees are rendered at all.

A rendering takes the values of a tree as they are, apart from moments. Two moments that stand for
the same have one timestamp, or both have none.
-/

set_option autoImplicit false

namespace DocumentStore

/-! ### Drafts that stand for the same -/

namespace Draft

/-- A draft whose values are without circles and without not-a-number. -/
structure ComparableIn (store : Store) (draft : Draft) : Prop where
  isCopy : draft.IsCopy
  leaves : ∀ value ∈ draft.leaves, store.Comparable value

variable {store : Store}

mutual

theorem comparable_treeIn (wellKeyed : store.WellKeyed) (draft : Draft) (isCopy : draft.IsCopy)
    (leaves : ∀ value ∈ draft.leaves, store.Comparable value) :
    (draft.treeIn store).Comparable := by
  cases draft with
  | value value => exact (leaves value (List.mem_singleton_self value)).unfold wellKeyed
  | array items => exact comparable_itemTreesIn wellKeyed items isCopy leaves
  | object fields =>
      refine ⟨?_, comparable_fieldTreesIn wellKeyed fields isCopy.2 leaves⟩
      rw [Table.Distinct, keys_fieldTreesIn]
      exact isCopy.1
  | blob => exact trivial

theorem comparable_itemTreesIn (wellKeyed : store.WellKeyed) (items : List Draft)
    (isCopy : IsCopyItems items) (leaves : ∀ value ∈ leavesOfItems items, store.Comparable value) :
    Tree.ComparableItems (itemTreesIn store items) := by
  cases items with
  | nil => exact trivial
  | cons item rest =>
      rw [leavesOfItems, List.forall_mem_append] at leaves
      exact ⟨comparable_treeIn wellKeyed item isCopy.1 leaves.1,
        comparable_itemTreesIn wellKeyed rest isCopy.2 leaves.2⟩

theorem comparable_fieldTreesIn (wellKeyed : store.WellKeyed) (fields : List (String × Draft))
    (isCopy : IsCopyFields fields)
    (leaves : ∀ value ∈ leavesOfFields fields, store.Comparable value) :
    Tree.ComparableFields (fieldTreesIn store fields) := by
  cases fields with
  | nil => exact trivial
  | cons field rest =>
      obtain ⟨key, draft⟩ := field
      rw [leavesOfFields, List.forall_mem_append] at leaves
      exact ⟨comparable_treeIn wellKeyed draft isCopy.1 leaves.1,
        comparable_fieldTreesIn wellKeyed rest isCopy.2 leaves.2⟩

end

theorem comparableIn_value {value : Value} (comparable : store.Comparable value) :
    (Draft.value value).ComparableIn store :=
  ⟨trivial, by simpa [leaves] using comparable⟩

theorem comparableIn_text (text : String) : (Draft.text text).ComparableIn store :=
  comparableIn_value (Store.comparable_of_scalar (by simp) (by simp))

/-- Two drafts without circles and without not-a-number stand for the same. -/
structure Same (store : Store) (left right : Draft) : Prop where
  comparable : left.ComparableIn store
  otherComparable : right.ComparableIn store
  meaning : (left.treeIn store).meaning = (right.treeIn store).meaning

theorem Same.refl {draft : Draft} (comparable : draft.ComparableIn store) : Same store draft draft :=
  ⟨comparable, comparable, rfl⟩

theorem Same.text (text : String) : Same store (.text text) (.text text) :=
  .refl (comparableIn_text text)

theorem Same.array {items others : List Draft} (each : List.Forall₂ (Same store) items others) :
    Same store (.array items) (.array others) := by
  induction each with
  | nil => exact .refl ⟨trivial, by simp [leaves, leavesOfItems]⟩
  | @cons item other rest others same _ inductionHypothesis =>
      obtain ⟨comparable, otherComparable, meaning⟩ := inductionHypothesis
      refine ⟨⟨⟨same.comparable.isCopy, comparable.isCopy⟩, ?_⟩,
        ⟨⟨same.otherComparable.isCopy, otherComparable.isCopy⟩, ?_⟩, ?_⟩
      · rw [leaves, leavesOfItems, List.forall_mem_append]
        exact ⟨same.comparable.leaves, comparable.leaves⟩
      · rw [leaves, leavesOfItems, List.forall_mem_append]
        exact ⟨same.otherComparable.leaves, otherComparable.leaves⟩
      · have remaining := Meaning.array.inj meaning
        rw [treeIn, treeIn, itemTreesIn, itemTreesIn, Tree.meaning, Tree.meaning,
          Tree.itemMeanings, Tree.itemMeanings, same.meaning, remaining]

/-- Placed one after the other, drafts that stand for the same are equal values. -/
theorem Same.equalValues_place {left right : Draft} (same : Same store left right)
    (wellKeyed : store.WellKeyed) :
    let first := store.place left
    let second := first.2.place right
    Expression.equalValues second.2 first.1 second.1 = true := by
  have firstPlaced := Store.unfoldsTo_place left same.comparable.isCopy
    (fun value member => (same.comparable.leaves value member).founded) (.refl store)
  have secondPlaced := Store.unfoldsTo_place right same.otherComparable.isCopy
    (fun value member => (same.otherComparable.leaves value member).founded)
    (Store.extends_place store left)
  intro first second
  have kept := firstPlaced.of_extends (Store.extends_place first.2 right)
  rw [Expression.equalValues, kept.unfolds, secondPlaced.unfolds, Tree.equal_iff_meaning]
  · exact same.meaning
  · exact comparable_treeIn wellKeyed left same.comparable.isCopy same.comparable.leaves
  · exact comparable_treeIn wellKeyed right same.otherComparable.isCopy same.otherComparable.leaves

end Draft

/-! ### Renderings of trees that stand for the same -/

/-- Two computations fail, or give related results. -/
inductive Alike {α β : Type} (related : α → β → Prop) : Except Failure α → Except Failure β → Prop
  where
  | failed (cause other : Failure) : Alike related (.error cause) (.error other)
  | done {made : α} {other : β} (isRelated : related made other) : Alike related (.ok made) (.ok other)

namespace Alike

variable {α β γ δ : Type} {related : α → β → Prop} {further : γ → δ → Prop}
  {left : Except Failure α} {right : Except Failure β}

theorem bind {others : α → Except Failure γ} {otherOthers : β → Except Failure δ}
    (alike : Alike related left right)
    (continues : ∀ made other, related made other → Alike further (others made) (otherOthers other)) :
    Alike further (left >>= others) (right >>= otherOthers) := by
  cases alike with
  | failed cause other => exact .failed cause other
  | done isRelated => exact continues _ _ isRelated

theorem map {form : α → γ} {otherForm : β → δ} (alike : Alike related left right)
    (continues : ∀ made other, related made other → further (form made) (otherForm other)) :
    Alike further (left >>= fun made => .ok (form made))
      (right >>= fun other => .ok (otherForm other)) :=
  alike.bind fun made other isRelated => .done (continues made other isRelated)

theorem error_iff (alike : Alike related left right) :
    (∃ failure, left = .error failure) ↔ ∃ failure, right = .error failure := by
  cases alike <;> simp

end Alike

theorem Calendar.Timestamp.write?_eq_of_place {left right : Calendar.Moment}
    (same : left.place = right.place) : write? left = write? right := by
  unfold Calendar.Moment.place at same
  rw [write?, write?]
  cases known : left.offset <;> cases otherKnown : right.offset <;> rw [known, otherKnown] at same
  · cases same
    rfl
  · cases same
  · cases same
  · have instants : left.instant = right.instant := Sum.inl.inj same
    simp only [Calendar.Moment.utc?, instants]

/-- Nothing but a moment stands for a moment. -/
theorem Store.Founded.exists_moment {store : Store} {value : Value} {place : Int ⊕ Calendar.Moment}
    (founded : store.Founded value) (stands : (store.unfold value).meaning = .moment place) :
    ∃ moment, value = .moment moment ∧ moment.place = place := by
  cases founded with
  | scalar scalar =>
      rw [unfold_of_scalar scalar] at stands
      cases value with
      | cell ref => exact absurd rfl (scalar ref)
      | moment moment => exact ⟨moment, rfl, Meaning.moment.inj stands⟩
      | _ => cases stands
  | @container ref cell read each =>
      rw [(Founded.container read each).unfold_eq read] at stands
      cases cell <;> cases stands

namespace Expression

variable {store : Store}

theorem renderLiteral_of_no_moment {value : Value} (noMoment : ∀ moment, value ≠ .moment moment) :
    renderLiteral value = .ok (.value value) := by
  cases value with
  | moment moment => exact absurd rfl (noMoment moment)
  | _ => rfl

theorem meaning_unfold_moment (store : Store) (moment : Calendar.Moment) :
    (store.unfold (.moment moment)).meaning = .moment moment.place := by
  rw [Store.unfold_of_scalar (by simp)]
  rfl

/-- Literals that stand for the same are rendered as drafts that do. -/
theorem alike_renderLiteral {left right : Value} (comparable : store.Comparable left)
    (otherComparable : store.Comparable right)
    (same : (store.unfold left).meaning = (store.unfold right).meaning) :
    Alike (Draft.Same store) (renderLiteral left) (renderLiteral right) := by
  by_cases isMoment : ∃ moment, left = .moment moment
  · obtain ⟨moment, rfl⟩ := isMoment
    rw [meaning_unfold_moment] at same
    obtain ⟨other, rfl, place⟩ := otherComparable.founded.exists_moment same.symm
    rw [renderLiteral, renderLiteral, Calendar.Timestamp.write?_eq_of_place place]
    cases Calendar.Timestamp.write? moment with
    | none => exact .failed _ _
    | some timestamp => exact .done (.text timestamp)
  · have otherNoMoment : ∀ moment, right ≠ .moment moment := by
      rintro moment rfl
      rw [meaning_unfold_moment] at same
      obtain ⟨other, equal, _⟩ := comparable.founded.exists_moment same
      exact isMoment ⟨other, equal⟩
    rw [renderLiteral_of_no_moment (not_exists.1 isMoment), renderLiteral_of_no_moment otherNoMoment]
    exact .done ⟨Draft.comparableIn_value comparable, Draft.comparableIn_value otherComparable, same⟩

theorem comparableIn_collation (collation : Collation) : collation.render.ComparableIn store := by
  have isCopy : collation.render.IsCopy := by
    cases locale : collation.locale <;>
      simp [Collation.render, Draft.IsCopy, Draft.IsCopyFields, Table.Distinct, locale,
        Draft.optionalText]
  refine ⟨isCopy, fun value member => ?_⟩
  have scalar : (∀ ref, value ≠ .cell ref) ∧ value ≠ .double .nan := by
    cases locale : collation.locale <;>
      simp only [Collation.render, Draft.leaves, Draft.leavesOfFields, locale, Draft.optionalText,
        List.cons_append, List.nil_append, List.append_nil, List.mem_cons, List.not_mem_nil,
        or_false] at member <;>
      rcases member with rfl | rfl | rfl | rfl <;> simp
  exact Store.comparable_of_scalar scalar.1 scalar.2

/-- Renderings that begin with the same word and go on with drafts that stand for the same. -/
theorem same_tagged (word : String) {items others : List Draft}
    (each : List.Forall₂ (Draft.Same store) items others) :
    Draft.Same store (.array (.text word :: items)) (.array (.text word :: others)) :=
  .array (.cons (.text word) each)

theorem comparable_bounds {lower upper : Expression} :
    (aggregate [lower, upper]).Comparable store
      ↔ lower.Comparable store ∧ upper.Comparable store := by
  show AllComparable store [lower, upper] ↔ _
  rw [allComparable_cons, allComparable_cons]
  simp [AllComparable, valuesOf]

/-- What stands for bounds are bounds. -/
theorem exists_bounds_of_sense {lower upper right : Expression}
    (same : (aggregate [lower, upper]).sense store = right.sense store) :
    ∃ otherLower otherUpper, right = .aggregate [otherLower, otherUpper]
      ∧ lower.sense store = otherLower.sense store
      ∧ upper.sense store = otherUpper.sense store := by
  cases right with
  | aggregate items =>
      have each := Sense.aggregate.inj same
      match items with
      | [otherLower, otherUpper] =>
          obtain ⟨lowers, uppers⟩ := List.cons.inj each
          exact ⟨otherLower, otherUpper, rfl, lowers, (List.cons.inj uppers).1⟩
      | [] | [_] | _ :: _ :: _ :: _ => simp [senses] at each
  | _ => cases same

theorem isBounds_of_sense {left right : Expression} (same : left.sense store = right.sense store)
    (bounds : left.isBounds = true) : right.isBounds = true := by
  obtain ⟨lower, upper, rfl⟩ := exists_of_isBounds bounds
  obtain ⟨_, _, rfl, _⟩ := exists_bounds_of_sense same
  rfl

theorem alike_range {left lower upper otherLeft otherLower otherUpper : Expression}
    (first : Alike (Draft.Same store) (render store left) (render store otherLeft))
    (low : Alike (Draft.Same store) (render store lower) (render store otherLower))
    (high : Alike (Draft.Same store) (render store upper) (render store otherUpper)) :
    Alike (Draft.Same store) (render store (left.between lower upper))
      (render store (otherLeft.between otherLower otherUpper)) := by
  rw [between, between, render, render]
  refine first.bind fun _ _ isSame => low.bind fun _ _ lowSame => ?_
  refine high.map fun _ _ highSame => same_tagged _ ?_
  exact .cons isSame (.cons lowSame (.cons highSame .nil))

mutual

/-- Trees that stand for the same are rendered as drafts that do, or neither of them is. -/
theorem alike_render (left right : Expression) (comparable : left.Comparable store)
    (otherComparable : right.Comparable store) (same : left.sense store = right.sense store) :
    Alike (Draft.Same store) (render store left) (render store right) := by
  cases left with
  | literal value =>
      cases right with
      | literal other =>
          exact alike_renderLiteral (comparable value (List.mem_singleton_self value))
            (otherComparable other (List.mem_singleton_self other)) (Sense.literal.inj same)
      | _ => cases same
  | foreign value =>
      cases right with
      | foreign other => exact .failed _ _
      | _ => cases same
  | bare identity =>
      cases right with
      | bare other => exact .failed _ _
      | _ => cases same
  | property path source column =>
      cases right with
      | property =>
          cases same
          rw [render, renderPath_eq]
          exact .done (same_tagged _ .nil)
      | _ => cases same
  | metadata path column source =>
      cases right with
      | metadata =>
          cases same
          rw [render, renderPath_eq]
          exact .done (same_tagged _ .nil)
      | _ => cases same
  | parameter name =>
      cases right with
      | parameter other =>
          cases same
          exact .done (same_tagged _ .nil)
      | _ => cases same
  | «variable» name =>
      cases right with
      | «variable» other =>
          cases same
          exact .done (same_tagged _ .nil)
      | _ => cases same
  | fullTextMatch index query =>
      cases right with
      | fullTextMatch =>
          cases same
          exact .done (same_tagged _ (.cons (.text index) (.cons (.text query) .nil)))
      | _ => cases same
  | unary operator operand =>
      cases right with
      | unary other further =>
          obtain ⟨rfl, inner⟩ := Sense.unary.inj same
          have alike := alike_render operand further comparable otherComparable inner
          have mark : Draft.Same store (.array [.text "MISSING"]) (.array [.text "MISSING"]) :=
            same_tagged _ .nil
          have null : Draft.Same store (.value .null) (.value .null) :=
            .refl (Draft.comparableIn_value (Store.comparable_of_scalar (by simp) (by simp)))
          rw [render, render]
          refine alike.map fun rendered others isSame => ?_
          cases operator with
          | missing | notMissing => exact same_tagged _ (.cons isSame (.cons mark .nil))
          | null | notNull => exact same_tagged _ (.cons isSame (.cons null .nil))
      | _ => cases same
  | binary operator left second =>
      cases right with
      | binary other otherLeft otherSecond =>
          obtain ⟨rfl, leftInner, secondInner⟩ := Sense.binary.inj same
          obtain ⟨leftComparable, secondComparable⟩ := comparable_binary.1 comparable
          obtain ⟨otherLeftComparable, otherSecondComparable⟩ := comparable_binary.1 otherComparable
          have first := alike_render left otherLeft leftComparable otherLeftComparable leftInner
          by_cases range : operator = .between ∧ second.isBounds = true
          · obtain ⟨rfl, bounds⟩ := range
            obtain ⟨lower, upper, rfl⟩ := exists_of_isBounds bounds
            obtain ⟨otherLower, otherUpper, rfl, lowerInner, upperInner⟩ :=
              exists_bounds_of_sense secondInner
            obtain ⟨lowerComparable, upperComparable⟩ := comparable_bounds.1 secondComparable
            obtain ⟨otherLowerComparable, otherUpperComparable⟩ :=
              comparable_bounds.1 otherSecondComparable
            have low := alike_render lower otherLower lowerComparable otherLowerComparable lowerInner
            have high := alike_render upper otherUpper upperComparable otherUpperComparable upperInner
            exact alike_range first low high
          · have otherRange : ¬(operator = .between ∧ otherSecond.isBounds = true) :=
              fun both => range ⟨both.1, isBounds_of_sense secondInner.symm both.2⟩
            have further := alike_render second otherSecond secondComparable otherSecondComparable
              secondInner
            rw [render_binary range, render_binary otherRange]
            refine first.bind fun _ _ isSame => further.map fun _ _ furtherSame => ?_
            exact same_tagged _ (.cons isSame (.cons furtherSame .nil))
      | _ => cases same
  | compound operator operands =>
      cases right with
      | compound other others =>
          obtain ⟨rfl, inner⟩ := Sense.compound.inj same
          have alike := alike_renderAll operands others comparable otherComparable inner
          rw [render, render]
          exact alike.map fun _ _ each => same_tagged _ each
      | _ => cases same
  | aggregate items =>
      cases right with
      | aggregate others =>
          have alike := alike_renderAll items others comparable otherComparable
            (Sense.aggregate.inj same)
          rw [render, render]
          exact alike.map fun _ _ each => same_tagged _ each
      | _ => cases same
  | collated operand collation =>
      cases right with
      | collated further other =>
          obtain ⟨inner, rfl⟩ := Sense.collated.inj same
          have alike := alike_render operand further comparable otherComparable inner
          rw [render, render]
          refine alike.map fun _ _ isSame => same_tagged _ ?_
          exact .cons (.refl (comparableIn_collation collation)) (.cons isSame .nil)
      | _ => cases same
  | function name arguments =>
      cases right with
      | function other others =>
          obtain ⟨rfl, inner⟩ := Sense.function.inj same
          have alike := alike_renderAll arguments others comparable otherComparable inner
          rw [render, render]
          exact alike.map fun _ _ each => same_tagged _ each
      | _ => cases same

theorem alike_renderAll (left right : List Expression) (comparable : AllComparable store left)
    (otherComparable : AllComparable store right) (same : senses store left = senses store right) :
    Alike (List.Forall₂ (Draft.Same store)) (renderAll store left) (renderAll store right) := by
  cases left with
  | nil =>
      cases right with
      | nil => exact .done .nil
      | cons => cases same
  | cons expression rest =>
      cases right with
      | nil => cases same
      | cons other others =>
          obtain ⟨first, remaining⟩ := allComparable_cons.1 comparable
          obtain ⟨otherFirst, otherRemaining⟩ := allComparable_cons.1 otherComparable
          obtain ⟨sameFirst, sameRest⟩ := List.cons.inj same
          have alike := alike_render expression other first otherFirst sameFirst
          have alikeRest := alike_renderAll rest others remaining otherRemaining sameRest
          rw [renderAll, renderAll]
          refine alike.bind fun rendered otherRendered isSame => ?_
          exact alikeRest.map fun _ _ each => .cons isSame each

end

/-! ### Equal trees -/

theorem columnName?_eq_of_sense {left right : Expression}
    (same : left.sense store = right.sense store) : left.columnName? = right.columnName? := by
  cases left with
  | property | metadata =>
      cases right with
      | property | metadata =>
          cases same
          try rfl
      | _ => cases same
  | _ =>
      cases right with
      | property | metadata => cases same
      | _ => rfl

/-- Over values without circles and not-a-number, equality of trees is an equivalence, and equal trees
are both refused or rendered as equal values, and return their properties under one name. -/
theorem equality_is_sound_for_rendering (wellKeyed : store.WellKeyed) :
    (∀ tree : Expression, tree.Comparable store → equal store tree tree = true)
      ∧ (∀ left right : Expression, left.Comparable store → right.Comparable store →
          equal store left right = true → equal store right left = true)
      ∧ (∀ left between right : Expression, left.Comparable store → between.Comparable store →
          right.Comparable store → equal store left between = true →
          equal store between right = true → equal store left right = true)
      ∧ ∀ left right : Expression, left.Comparable store → right.Comparable store →
          equal store left right = true →
          ((∃ failure, render store left = .error failure)
              ↔ ∃ failure, render store right = .error failure)
            ∧ (∀ rendered others, render store left = .ok rendered → render store right = .ok others →
                let first := store.place rendered
                let second := first.2.place others
                equalValues second.2 first.1 second.1 = true)
            ∧ left.columnName? = right.columnName? := by
  refine ⟨?_, ?_, ?_, ?_⟩
  · intro tree comparable
    rw [equal_iff_sense wellKeyed tree tree comparable comparable]
  · intro left right comparable otherComparable
    rw [equal_iff_sense wellKeyed left right comparable otherComparable,
      equal_iff_sense wellKeyed right left otherComparable comparable]
    exact Eq.symm
  · intro left between right comparable betweenComparable otherComparable
    rw [equal_iff_sense wellKeyed left between comparable betweenComparable,
      equal_iff_sense wellKeyed between right betweenComparable otherComparable,
      equal_iff_sense wellKeyed left right comparable otherComparable]
    exact Eq.trans
  · intro left right comparable otherComparable equal
    have same := (equal_iff_sense wellKeyed left right comparable otherComparable).1 equal
    have alike := alike_render left right comparable otherComparable same
    refine ⟨alike.error_iff, ?_, columnName?_eq_of_sense same⟩
    intro rendered others done otherDone
    rw [done, otherDone] at alike
    cases alike with
    | done isSame => exact isSame.equalValues_place wellKeyed

/-- The same object twice, with its fields in another order and a number of another kind. -/
def twinStore : Store :=
  ⟨#[.object [("floor", .integer 1), ("open", .boolean true)],
    .object [("open", .integer 1), ("floor", .double (.ofRatio false 1 1))]]⟩

/-- A comparison with one of the objects. -/
def withTwin (ref : Ref) : Expression :=
  (ofProperty "house").binary .equalTo (.literal (.cell ref))

theorem twins_rendered_equal :
    twinStore.WellKeyed ∧ equal twinStore (withTwin 0) (withTwin 1) = true
      ∧ ∃ rendered others, render twinStore (withTwin 0) = .ok rendered
        ∧ render twinStore (withTwin 1) = .ok others
        ∧ equalValues ((twinStore.place rendered).2.place others).2 (twinStore.place rendered).1
          ((twinStore.place rendered).2.place others).1 = true := by
  have first : twinStore.read? 0 =
      some (.object [("floor", .integer 1), ("open", .boolean true)]) := rfl
  have second : twinStore.read? 1 =
      some (.object [("open", .integer 1), ("floor", .double (.ofRatio false 1 1))]) := rfl
  have wellKeyed : twinStore.WellKeyed := by
    intro (ref : Nat) fields read
    have bound : ref < 2 := Store.lt_size_of_read? read
    have either : ref = 0 ∨ ref = 1 := by omega
    rcases either with rfl | rfl
    · cases first.symm.trans read
      simp [Table.Distinct]
    · cases second.symm.trans read
      simp [Table.Distinct]
  have number : Double.ofRatio false 1 1 ≠ .nan := by decide +kernel
  have comparable : (withTwin 0).Comparable twinStore := by
    simp only [Comparable, withTwin, ofProperty, values, List.nil_append, List.forall_mem_singleton]
    refine Store.comparable_of_container first fun inner member => ?_
    simp only [Cell.values, List.map_cons, List.map_nil, List.mem_cons, List.not_mem_nil,
      or_false] at member
    rcases member with rfl | rfl <;> exact Store.comparable_of_scalar (by simp) (by simp)
  have otherComparable : (withTwin 1).Comparable twinStore := by
    simp only [Comparable, withTwin, ofProperty, values, List.nil_append, List.forall_mem_singleton]
    refine Store.comparable_of_container second fun inner member => ?_
    simp only [Cell.values, List.map_cons, List.map_nil, List.mem_cons, List.not_mem_nil,
      or_false] at member
    rcases member with rfl | rfl <;> exact Store.comparable_of_scalar (by simp) (by simp [number])
  have equal : equal twinStore (withTwin 0) (withTwin 1) = true := by decide +kernel
  have sound := (equality_is_sound_for_rendering wellKeyed).2.2.2 _ _ comparable otherComparable equal
  exact ⟨wellKeyed, equal, _, _, rfl, rfl, sound.2.1 _ _ rfl rfl⟩

end Expression

end DocumentStore
