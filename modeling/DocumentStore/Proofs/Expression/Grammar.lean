import DocumentStore.Proofs.Calendar.Accuracy
import DocumentStore.Proofs.Expression.Canonical

/-!
Contract: what a tree is rendered as, and which operand is the reason if it is not rendered.

Owns: the trees that the constructors of the nodes accept, the reasons against single operands, and
the grammar that renderings follow.

Does not own: the tree that a rendering tells, and the placement of renderings in a store.

The operands of a tree are listed depth first and from left to right. A rendering goes through them
in this order and stops at the first that stands for nothing, so its failure is the first reason in
the list. Without a reason every node is rendered, and the grammar says as what.
-/

set_option autoImplicit false

namespace DocumentStore

/-! ### Computations with a reason to fail -/

/-- A computation fails for the reason there is, and gives something good if there is none. -/
def Decides {α : Type} (good : α → Prop) (reason : Option Failure) (result : Except Failure α) :
    Prop :=
  match reason with
  | some failure => result = .error failure
  | none => ∃ made, result = .ok made ∧ good made

namespace Decides

variable {α β : Type} {good : α → Prop} {fine : β → Prop} {reason further : Option Failure}

theorem ok {made : α} (isGood : good made) : Decides good none (.ok made) :=
  ⟨made, rfl, isGood⟩

/-- Of two steps the first reason counts. -/
theorem bind {first : Except Failure α} {others : α → Except Failure β}
    (decides : Decides good reason first)
    (continues : ∀ made, good made → Decides fine further (others made)) :
    Decides fine (reason.or further) (first >>= others) := by
  cases reason with
  | some failure =>
      have failed : first = .error failure := decides
      rw [failed]
      rfl
  | none =>
      obtain ⟨made, done, isGood⟩ := decides
      rw [done]
      exact continues made isGood

/-- A last step that cannot fail adds no reason. -/
theorem map {first : Except Failure α} {form : α → β} (decides : Decides good reason first)
    (continues : ∀ made, good made → fine (form made)) :
    Decides fine reason (first >>= fun made => .ok (form made)) := by
  have both := decides.bind fun made isGood => ok (continues made isGood)
  rwa [Option.or_none] at both

theorem error_iff {result : Except Failure α} (decides : Decides good reason result)
    {failure : Failure} : result = .error failure ↔ reason = some failure := by
  cases reason with
  | some cause =>
      have failed : result = .error cause := decides
      rw [failed, Except.error.injEq, Option.some.injEq]
  | none =>
      obtain ⟨made, done, _⟩ := decides
      simp [done]

end Decides

namespace Expression

/-! ### Accepted trees -/

/-- The trees that the constructors of the nodes accept, with anything in operand positions. -/
inductive Constructed : Expression → Prop where
  | literal (value : Value) : Constructed (.literal value)
  | property (path : String) (source column : Option String) :
      Constructed (.property path source column)
  | metadata (path : String) (column source : Option String) :
      Constructed (.metadata path column source)
  | parameter (name : String) : Constructed (.parameter name)
  | boundVariable (name : String) : Constructed (.variable name)
  | unary {operator : UnaryOperator} {operand made : Expression} (constructed : Constructed operand)
      (making : unary? operator operand = .ok made) : Constructed made
  | binary {operator : BinaryOperator} {left right made : Expression}
      (leftConstructed : Constructed left) (rightConstructed : Constructed right)
      (making : binary? operator left right = .ok made) : Constructed made
  | compound (operator : CompoundOperator) {operands : List Expression}
      (constructed : ∀ operand ∈ operands, Constructed operand) :
      Constructed (.compound operator operands)
  | aggregate {items : List Expression} (constructed : ∀ item ∈ items, Constructed item) :
      Constructed (.aggregate items)
  | collated {operand : Expression} (constructed : Constructed operand) (collation : Collation) :
      Constructed (.collated operand collation)
  | function (name : String) {arguments : List Expression}
      (constructed : ∀ argument ∈ arguments, Constructed argument) :
      Constructed (.function name arguments)
  | fullTextMatch (index query : String) : Constructed (.fullTextMatch index query)
  | bare (identity : Ref) : Constructed (.bare identity)
  | foreign (value : Value) : Constructed (.foreign value)

/-- A test of presence is refused exactly without an operand. -/
theorem unary?_eq_ok_iff {operator : UnaryOperator} {operand made : Expression} :
    unary? operator operand = .ok made
      ↔ operand ≠ .foreign .null ∧ made = .unary operator operand := by
  unfold unary?
  split
  · simp
  · next present => rw [and_iff_right present, Except.ok.injEq, eq_comm]

theorem isBounds_iff {expression : Expression} :
    expression.isBounds = true ↔ ∃ lower upper, expression = .aggregate [lower, upper] := by
  refine ⟨exists_of_isBounds, ?_⟩
  rintro ⟨lower, upper, rfl⟩
  rfl

/-- A range is refused exactly without two bounds, and no other node of two operands is. -/
theorem binary?_eq_ok_iff {operator : BinaryOperator} {left right made : Expression} :
    binary? operator left right = .ok made
      ↔ (operator = .between → ∃ lower upper, right = .aggregate [lower, upper])
        ∧ made = .binary operator left right := by
  rw [binary?, ← isBounds_iff]
  split
  · next unbounded => simp [unbounded.1, unbounded.2]
  · next bounded =>
      have bounds : operator = .between → right.isBounds = true := fun range =>
        Classical.byContradiction fun unbounded => bounded ⟨range, unbounded⟩
      rw [and_iff_right bounds, Except.ok.injEq, eq_comm]

/-- What the constructor of a node asks of the node. -/
def Admissible : Expression → Prop
  | .binary .between _ right => ∃ lower upper, right = .aggregate [lower, upper]
  | _ => True

/-- The operands of a node, in the order in which they are rendered. -/
def operands : Expression → List Expression
  | .unary _ operand => [operand]
  | .binary _ left right => [left, right]
  | .compound _ operands => operands
  | .aggregate items => items
  | .collated operand _ => [operand]
  | .function _ arguments => arguments
  | _ => []

/-- An accepted node is admissible, and its operands are accepted. -/
theorem Constructed.parts {expression : Expression} (constructed : Constructed expression) :
    expression.Admissible ∧ ∀ operand ∈ expression.operands, Constructed operand := by
  cases constructed with
  | unary constructed making =>
      obtain ⟨_, rfl⟩ := unary?_eq_ok_iff.1 making
      exact ⟨trivial, by simpa [operands] using constructed⟩
  | @binary operator _ _ _ leftConstructed rightConstructed making =>
      obtain ⟨bounded, rfl⟩ := binary?_eq_ok_iff.1 making
      refine ⟨?_, by simpa [operands] using ⟨leftConstructed, rightConstructed⟩⟩
      cases operator with
      | between => exact bounded rfl
      | _ => exact trivial
  | compound operator constructed => exact ⟨trivial, constructed⟩
  | aggregate constructed => exact ⟨trivial, constructed⟩
  | collated constructed collation => exact ⟨trivial, by simpa [operands] using constructed⟩
  | function name constructed => exact ⟨trivial, constructed⟩
  | _ => exact ⟨trivial, by simp [operands]⟩

mutual

/-- A tree and everything in its operand positions, depth first and from left to right. -/
def parts : Expression → List Expression
  | .unary operator operand => .unary operator operand :: parts operand
  | .binary operator left right => .binary operator left right :: (parts left ++ parts right)
  | .compound operator operands => .compound operator operands :: partsOf operands
  | .aggregate items => .aggregate items :: partsOf items
  | .collated operand collation => .collated operand collation :: parts operand
  | .function name arguments => .function name arguments :: partsOf arguments
  | leaf => [leaf]

def partsOf : List Expression → List Expression
  | [] => []
  | expression :: rest => parts expression ++ partsOf rest

end

/-! ### Reasons -/

/-- A node of one of the kinds that are rendered. -/
def IsNode : Expression → Prop
  | .bare _ => False
  | .foreign _ => False
  | _ => True

/-- A literal that is a moment without a form in UTC in the years 1 to 9999. -/
def LeavesCalendar (expression : Expression) : Prop :=
  ∃ moment, expression = .literal (.moment moment) ∧ moment.offset ≠ none
    ∧ ¬Calendar.InCalendar moment.instant

/-- The kind that a complaint about a value names: its own, or that of the container it refers to. -/
def namedKind (store : Store) : Value → Kind
  | .null => .null
  | .boolean _ => .boolean
  | .integer _ => .integer
  | .double _ => .double
  | .text _ => .text
  | .bytes _ => .bytes
  | .moment _ => .moment
  | .cell ref =>
      match store.read? ref with
      | some (.array _) => .array
      | some (.object _) => .object
      | some (.blob _) => .blob
      | none => .null

theorem foreignKind_eq_namedKind (store : Store) (value : Value) :
    foreignKind store value = namedKind store value := by
  cases value <;> rfl

/-- The reason for which an operand cannot be rendered, whatever its own operands are. -/
def reason? (store : Store) : Expression → Option Failure
  | .bare _ => some (.unsupportedOperand .expression)
  | .foreign value => some (.unsupportedOperand (namedKind store value))
  | .literal (.moment moment) =>
      if moment.offset ≠ none ∧ ¬Calendar.InCalendar moment.instant then some .outsideCalendar
      else none
  | _ => none

theorem reason?_eq_none_iff {store : Store} {expression : Expression} :
    reason? store expression = none ↔ expression.IsNode ∧ ¬expression.LeavesCalendar := by
  cases expression with
  | literal value =>
      cases value with
      | moment moment => simp [reason?, IsNode, LeavesCalendar]
      | _ => simp [reason?, IsNode, LeavesCalendar]
  | _ => simp [reason?, IsNode, LeavesCalendar]

/-! ### The grammar -/

end Expression

/-- The word that a test of presence starts with. -/
def UnaryOperator.word : UnaryOperator → String
  | missing | null => "IS"
  | notMissing | notNull => "IS NOT"

/-- What a test of presence compares its operand with. -/
def UnaryOperator.mark : UnaryOperator → Draft
  | missing | notMissing => .array [.text "MISSING"]
  | null | notNull => .value .null

/-- The word that an operation on two operands starts with. A range has an array of its own. -/
def BinaryOperator.word : BinaryOperator → String
  | add => "+"
  | subtract => "-"
  | multiply => "*"
  | divide => "/"
  | modulus => "%"
  | equalTo => "="
  | notEqualTo => "!="
  | lessThan => "<"
  | lessThanOrEqualTo => "<="
  | greaterThan => ">"
  | greaterThanOrEqualTo => ">="
  | is => "IS"
  | isNot => "IS NOT"
  | isIn => "IN"
  | like => "LIKE"
  | regexLike => "regexp_like()"
  | between => "BETWEEN"

theorem BinaryOperator.symbol_eq_word (operator : BinaryOperator) :
    operator.symbol = operator.word := by
  cases operator <;> rfl

/-- The word that a combination of predicates starts with. -/
def CompoundOperator.word : CompoundOperator → String
  | and => "AND"
  | or => "OR"
  | not => "NOT"

theorem CompoundOperator.symbol_eq_word (operator : CompoundOperator) :
    operator.symbol = operator.word := by
  cases operator <;> rfl

/-- What stands for a collation. Case and accents are told by whether a comparison heeds them. -/
def Collation.mark (collation : Collation) : Draft :=
  .object [("UNICODE", .value (.boolean collation.isUnicode)),
    ("LOCALE", collation.locale.elim (.value .null) .text),
    ("CASE", .value (.boolean (!collation.ignoresCase))),
    ("DIAC", .value (.boolean (!collation.ignoresAccents)))]

theorem Collation.render_eq_mark (collation : Collation) : collation.render = collation.mark := by
  rw [render, mark]
  cases collation.locale <;> rfl

namespace Expression

/-- The grammar of renderings: a leaf is a value or a named array, and any other node is an array of
a word and one element for each operand, to which a test of presence and a collated operand add a
mark. The bounds of a range stand in the array of the range itself. -/
inductive Renders : Expression → Draft → Prop where
  | literal {value : Value} (noMoment : ∀ moment, value ≠ .moment moment) :
      Renders (.literal value) (.value value)
  | moment {moment : Calendar.Moment} {timestamp : String}
      (written : Calendar.Timestamp.write? moment = some timestamp) :
      Renders (.literal (.moment moment)) (.text timestamp)
  | property (path : String) (source column : Option String) :
      Renders (.property path source column) (.array [.text ("." ++ joinedPath path source)])
  | metadata (path : String) (column source : Option String) :
      Renders (.metadata path column source) (.array [.text ("." ++ joinedPath path source)])
  | parameter (name : String) : Renders (.parameter name) (.array [.text ("$" ++ name)])
  | boundVariable (name : String) : Renders (.variable name) (.array [.text ("?" ++ name)])
  | presence (operator : UnaryOperator) {operand : Expression} {rendered : Draft}
      (renders : Renders operand rendered) :
      Renders (.unary operator operand) (.array [.text operator.word, rendered, operator.mark])
  | range {operand lower upper : Expression} {rendered lowest highest : Draft}
      (renders : Renders operand rendered) (lowerRenders : Renders lower lowest)
      (upperRenders : Renders upper highest) :
      Renders (.binary .between operand (.aggregate [lower, upper]))
        (.array [.text "BETWEEN", rendered, lowest, highest])
  | binary {operator : BinaryOperator} (noRange : operator ≠ .between) {left right : Expression}
      {first second : Draft} (leftRenders : Renders left first)
      (rightRenders : Renders right second) :
      Renders (.binary operator left right) (.array [.text operator.word, first, second])
  | compound (operator : CompoundOperator) {operands : List Expression} {rendered : List Draft}
      (each : List.Forall₂ Renders operands rendered) :
      Renders (.compound operator operands) (.array (.text operator.word :: rendered))
  | aggregate {items : List Expression} {rendered : List Draft}
      (each : List.Forall₂ Renders items rendered) :
      Renders (.aggregate items) (.array (.text "[]" :: rendered))
  | collated (collation : Collation) {operand : Expression} {rendered : Draft}
      (renders : Renders operand rendered) :
      Renders (.collated operand collation) (.array [.text "COLLATE", collation.mark, rendered])
  | function (name : String) {arguments : List Expression} {rendered : List Draft}
      (each : List.Forall₂ Renders arguments rendered) :
      Renders (.function name arguments) (.array (.text name :: rendered))
  | fullTextMatch (index query : String) :
      Renders (.fullTextMatch index query) (.array [.text "MATCH()", .text index, .text query])

theorem decides_renderLiteral (store : Store) (value : Value) :
    Decides (Renders (.literal value)) (reason? store (.literal value)) (renderLiteral value) := by
  cases value with
  | moment moment =>
      cases written : Calendar.Timestamp.write? moment with
      | none =>
          have outside := Calendar.Timestamp.write?_eq_none_iff.1 written
          rw [reason?, if_pos outside, renderLiteral, written]
          rfl
      | some timestamp =>
          have inside : ¬(moment.offset ≠ none ∧ ¬Calendar.InCalendar moment.instant) := by
            rw [← Calendar.Timestamp.write?_eq_none_iff, written]
            simp
          rw [reason?, if_neg inside, renderLiteral, written]
          exact .ok (.moment written)
  | _ => exact .ok (.literal (by simp))

variable {store : Store}

mutual

/-- An accepted tree is rendered by the grammar unless there is a reason against one of its parts,
and the first one is the failure. -/
theorem decides_render (expression : Expression) (constructed : Constructed expression) :
    Decides (Renders expression) (expression.parts.findSome? (reason? store))
      (render store expression) := by
  obtain ⟨admissible, accepted⟩ := constructed.parts
  cases expression with
  | literal value =>
      have alone : (literal value).parts = [literal value] := rfl
      rw [alone, List.findSome?_singleton, render]
      exact decides_renderLiteral store value
  | unary operator operand =>
      have inner := decides_render operand (accepted _ List.mem_cons_self)
      rw [parts, List.findSome?_cons, render]
      refine inner.map fun rendered renders => ?_
      cases operator with
      | _ => exact .presence _ renders
  | binary operator left right =>
      have first := decides_render left (accepted _ (by simp [operands]))
      rw [parts, List.findSome?_cons, List.findSome?_append]
      by_cases range : operator = .between
      · subst range
        obtain ⟨lower, upper, rfl⟩ := admissible
        have bounds := accepted (.aggregate [lower, upper]) (by simp [operands])
        have second := decides_render lower (bounds.parts.2 _ (by simp [operands]))
        have third := decides_render upper (bounds.parts.2 _ (by simp [operands]))
        rw [render, parts, List.findSome?_cons, partsOf, partsOf, partsOf, List.append_nil,
          List.findSome?_append]
        refine first.bind fun rendered renders => ?_
        refine second.bind fun lowest lowerRenders => ?_
        exact third.map fun highest upperRenders => .range renders lowerRenders upperRenders
      · have second := decides_render right (accepted _ (by simp [operands]))
        rw [render_binary (by simp [range]), operator.symbol_eq_word]
        refine first.bind fun rendered leftRenders => ?_
        exact second.map fun other rightRenders => .binary range leftRenders rightRenders
  | compound operator operands =>
      have inner := decides_renderAll operands accepted
      rw [parts, List.findSome?_cons, render, operator.symbol_eq_word]
      exact inner.map fun rendered each => .compound operator each
  | aggregate items =>
      have inner := decides_renderAll items accepted
      rw [parts, List.findSome?_cons, render]
      exact inner.map fun rendered each => .aggregate each
  | collated operand collation =>
      have inner := decides_render operand (accepted _ List.mem_cons_self)
      rw [parts, List.findSome?_cons, render, collation.render_eq_mark]
      exact inner.map fun rendered renders => .collated collation renders
  | function name arguments =>
      have inner := decides_renderAll arguments accepted
      rw [parts, List.findSome?_cons, render]
      exact inner.map fun rendered each => .function name each
  | property path source column =>
      rw [render, renderPath_eq]
      exact .ok (.property path source column)
  | metadata path column source =>
      rw [render, renderPath_eq]
      exact .ok (.metadata path column source)
  | parameter name => exact .ok (.parameter name)
  | «variable» name => exact .ok (.boundVariable name)
  | fullTextMatch index query => exact .ok (.fullTextMatch index query)
  | bare identity => rfl
  | foreign value =>
      rw [render, foreignKind_eq_namedKind]
      rfl

theorem decides_renderAll (expressions : List Expression)
    (constructed : ∀ expression ∈ expressions, Constructed expression) :
    Decides (List.Forall₂ Renders expressions) ((partsOf expressions).findSome? (reason? store))
      (renderAll store expressions) := by
  cases expressions with
  | nil => exact .ok .nil
  | cons expression rest =>
      rw [List.forall_mem_cons] at constructed
      have first := decides_render expression constructed.1
      have others := decides_renderAll rest constructed.2
      rw [partsOf, List.findSome?_append, renderAll]
      refine first.bind fun rendered renders => ?_
      exact others.map fun remaining each => .cons renders each

end

/-! ### Renderings -/

theorem findSome?_parts_eq_none_iff {expression : Expression} :
    expression.parts.findSome? (reason? store) = none
      ↔ ∀ part ∈ expression.parts, part.IsNode ∧ ¬part.LeavesCalendar := by
  simp only [List.findSome?_eq_none_iff, reason?_eq_none_iff]

theorem findSome?_parts_eq_some_iff {expression : Expression} {failure : Failure} :
    expression.parts.findSome? (reason? store) = some failure
      ↔ ∃ earlier part later, expression.parts = earlier ++ part :: later
        ∧ (∀ other ∈ earlier, other.IsNode ∧ ¬other.LeavesCalendar)
        ∧ reason? store part = some failure := by
  simp only [List.findSome?_eq_some_iff, reason?_eq_none_iff, and_comm]

/-- An accepted tree is not rendered exactly if it holds something that is no node or a moment
outside the calendar, the failure is about the first of these, and a tree without any is rendered by
the grammar. -/
theorem render_follows_grammar {expression : Expression} (constructed : Constructed expression)
    (store : Store) :
    ((∃ failure, render store expression = .error failure)
        ↔ ∃ part ∈ expression.parts, ¬part.IsNode ∨ part.LeavesCalendar)
      ∧ (∀ failure, render store expression = .error failure
          ↔ ∃ earlier part later, expression.parts = earlier ++ part :: later
            ∧ (∀ other ∈ earlier, other.IsNode ∧ ¬other.LeavesCalendar)
            ∧ reason? store part = some failure)
      ∧ ((∀ part ∈ expression.parts, part.IsNode ∧ ¬part.LeavesCalendar)
          → ∃ rendered, render store expression = .ok rendered ∧ Renders expression rendered) := by
  have decides : Decides (Renders expression) (expression.parts.findSome? (reason? store))
      (render store expression) := decides_render expression constructed
  refine ⟨?_, fun failure => ?_, fun fine => ?_⟩
  · simp only [decides.error_iff, ← Option.ne_none_iff_exists']
    rw [ne_eq, findSome?_parts_eq_none_iff, not_forall₂]
    simp only [not_and_or, not_not, exists_prop]
  · rw [decides.error_iff, findSome?_parts_eq_some_iff]
  · rwa [findSome?_parts_eq_none_iff.2 fine] at decides

/-- A range below a negation, with an expression of no kind for its lower bound and a plain value for
its upper bound: the lower bound is the reason. -/
theorem range_over_strangers_not_rendered :
    render .empty (negated ((ofProperty "age").between (.bare 7) (.foreign (.text "old"))))
      = .error (.unsupportedOperand .expression) := by
  have bounds : Constructed (.aggregate [.bare 7, .foreign (.text "old")]) :=
    .aggregate (by simp [Constructed.bare, Constructed.foreign])
  have range : Constructed ((ofProperty "age").between (.bare 7) (.foreign (.text "old"))) :=
    @Constructed.binary .between _ _ _ (.property "age" (some "") (some "")) bounds rfl
  have negation := Constructed.compound .not (List.forall_mem_singleton.2 range)
  refine ((render_follows_grammar negation .empty).2.1 _).2 ?_
  exact ⟨[_, _, _, _], .bare 7, [.foreign (.text "old")], rfl,
    by simp [IsNode, LeavesCalendar, ofProperty, between], rfl⟩

end Expression

end DocumentStore
