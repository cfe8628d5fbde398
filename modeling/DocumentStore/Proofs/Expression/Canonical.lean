import DocumentStore.Expression.Builder
import DocumentStore.Expression.Render
import DocumentStore.Table.Lemmas

/-!
Contract: trees that an engine cannot tell apart, and the trees that programs build.

Owns: the canonical tree of an expression, whose rendering is that of the expression; the trees
that factories and builder methods make, and the shapes that they have.

Does not own: the recovery of a tree from its rendering.

A tree is canonical when properties carry their whole path, tests for null are written as
comparisons, moments as their timestamps, and collations without their family. Nothing else of
a tree changes on the way to its canonical tree.
-/

set_option autoImplicit false

namespace DocumentStore

/-- Neither a container nor a byte string. -/
def Value.IsScalar : Value → Prop
  | .bytes _ => False
  | .cell _ => False
  | _ => True

namespace Expression

/-! ### Canonical trees -/

/-- A path behind the source it is taken from, if one is named. -/
def joinedPath (path : String) (source : Option String) : String :=
  match source with
  | some "" => path
  | some source => source ++ "." ++ path
  | none => path

/-- A literal with a moment written as its timestamp. -/
def canonicalValue : Value → Value
  | .moment moment =>
      match Calendar.Timestamp.write? moment with
      | some timestamp => .text timestamp
      | none => .moment moment
  | value => value

mutual

/-- The tree that stands for all that are rendered like it. -/
def canonical : Expression → Expression
  | .literal value => .literal (canonicalValue value)
  | .property path source _ => .property (joinedPath path source) none none
  | .metadata path _ source => .property (joinedPath path source) none none
  | .parameter name => .parameter name
  | .variable name => .variable name
  | .unary .null operand => .binary .is (canonical operand) (.literal .null)
  | .unary .notNull operand => .binary .isNot (canonical operand) (.literal .null)
  | .unary operator operand => .unary operator (canonical operand)
  | .binary operator left right => .binary operator (canonical left) (canonical right)
  | .compound operator operands => .compound operator (canonicalAll operands)
  | .aggregate items => .aggregate (canonicalAll items)
  | .collated operand collation =>
      .collated (canonical operand) { collation with family := .plain }
  | .function name arguments => .function name (canonicalAll arguments)
  | .fullTextMatch index query => .fullTextMatch index query
  | .bare identity => .bare identity
  | .foreign value => .foreign value

/-- The canonical trees of several trees. -/
def canonicalAll : List Expression → List Expression
  | [] => []
  | expression :: rest => canonical expression :: canonicalAll rest

end

theorem renderPath_eq (path : String) (source : Option String) :
    renderPath path source = .array [.text ("." ++ joinedPath path source)] := by
  unfold renderPath joinedPath
  split <;> simp [String.append_assoc]

theorem renderLiteral_canonicalValue (value : Value) :
    renderLiteral (canonicalValue value) = renderLiteral value := by
  cases value with
  | moment moment =>
      cases written : Calendar.Timestamp.write? moment with
      | none => simp [canonicalValue, renderLiteral, written]
      | some timestamp => simp [canonicalValue, renderLiteral, written, Draft.text]
  | _ => rfl

/-- Where the operands are no range, they are rendered one after the other. -/
theorem render_binary {operator : BinaryOperator} {left right : Expression}
    (noRange : ¬(operator = .between ∧ right.isBounds = true)) (store : Store) :
    render store (.binary operator left right) = do
      let renderedLeft ← render store left
      let renderedRight ← render store right
      return .array [.text operator.symbol, renderedLeft, renderedRight] := by
  rw [render]
  rintro lower upper rfl rfl
  exact noRange ⟨rfl, rfl⟩

theorem isBounds_canonical (expression : Expression) :
    expression.canonical.isBounds = expression.isBounds := by
  cases expression with
  | aggregate items =>
      match items with
      | [] => rfl
      | [_] => rfl
      | [_, _] => rfl
      | _ :: _ :: _ :: _ => rfl
  | unary operator operand => cases operator <;> rfl
  | _ => rfl

theorem exists_of_isBounds {expression : Expression} (bounds : expression.isBounds = true) :
    ∃ lower upper, expression = .aggregate [lower, upper] := by
  unfold isBounds at bounds
  split at bounds
  · exact ⟨_, _, rfl⟩
  · cases bounds

mutual

/-- The canonical tree is rendered as the tree is, or refused for the same reason. -/
theorem render_canonical (store : Store) (expression : Expression) :
    render store expression.canonical = render store expression := by
  cases expression with
  | literal value => simp only [canonical, render, renderLiteral_canonicalValue]
  | property path source column => simp only [canonical, render, renderPath_eq, joinedPath]
  | metadata path column source => simp only [canonical, render, renderPath_eq, joinedPath]
  | unary operator operand =>
      have same := render_canonical store operand
      cases operator with
      | null =>
          rw [canonical, render_binary (by simp), same]
          rfl
      | notNull =>
          rw [canonical, render_binary (by simp), same]
          rfl
      | missing => simp only [canonical, render, same]
      | notMissing => simp only [canonical, render, same]
  | binary operator left right =>
      have sameLeft := render_canonical store left
      by_cases range : operator = .between ∧ right.isBounds = true
      · obtain ⟨rfl, bounds⟩ := range
        obtain ⟨lower, upper, rfl⟩ := exists_of_isBounds bounds
        have sameLower := render_canonical store lower
        have sameUpper := render_canonical store upper
        simp only [canonical, canonicalAll, render, sameLeft, sameLower, sameUpper]
      · have sameRight := render_canonical store right
        have noRange : ¬(operator = .between ∧ right.canonical.isBounds = true) := by
          rwa [isBounds_canonical]
        rw [canonical, render_binary range, render_binary noRange, sameLeft, sameRight]
  | compound operator operands =>
      simp only [canonical, render, renderAll_canonicalAll store operands]
  | aggregate items => simp only [canonical, render, renderAll_canonicalAll store items]
  | collated operand collation =>
      simp only [canonical, render, render_canonical store operand, Collation.render]
  | function name arguments =>
      simp only [canonical, render, renderAll_canonicalAll store arguments]
  | _ => rfl

theorem renderAll_canonicalAll (store : Store) (expressions : List Expression) :
    renderAll store (canonicalAll expressions) = renderAll store expressions := by
  cases expressions with
  | nil => rfl
  | cons expression rest =>
      simp only [canonicalAll, renderAll, render_canonical store expression,
        renderAll_canonicalAll store rest]

end

/-! ### Trees that programs build -/

/-- The trees that are made by factories from scalars, by builder methods, by calls of functions
and by full-text matches. Builder methods make only two of the tests of presence; the others
are included. -/
inductive Built : Expression → Prop where
  | factory {name : String} {values : List Value} {made : Expression}
      (scalars : ∀ value ∈ values, value.IsScalar) (making : ofFactory? name values = some made) :
      Built made
  | documentProperty {name : String} {made : Expression}
      (found : Table.value? documentProperties name = some made) : Built made
  | allFrom (source : Option String) : Built (allFrom source)
  | taken {expression : Expression} (built : Built expression) (source : Option String) :
      Built (expression.taken source)
  | presence {expression : Expression} (built : Built expression) (operator : UnaryOperator) :
      Built (.unary operator expression)
  | negated {expression : Expression} (built : Built expression) : Built expression.negated
  | method {receiver made : Expression} {name : String} {operands : List Expression}
      (receiverBuilt : Built receiver) (operandsBuilt : ∀ operand ∈ operands, Built operand)
      (making : receiver.build? name operands = some made) : Built made
  | collated {expression : Expression} (built : Built expression) (collation : Collation) :
      Built (.collated expression collation)
  | call (function : BuiltinFunction) {arguments : List Expression}
      (argumentsBuilt : ∀ argument ∈ arguments, Built argument) : Built (function.call arguments)
  | fullTextMatch (index query : String) : Built (.fullTextMatch index query)

/-- The shapes of built trees: literals are scalars, ranges have two bounds, functions are those
of the query language, and every operand is such a tree. -/
inductive Regular : Expression → Prop where
  | literal {value : Value} (scalar : value.IsScalar) : Regular (.literal value)
  | property (path : String) (source column : Option String) : Regular (.property path source column)
  | metadata (path : String) (column source : Option String) : Regular (.metadata path column source)
  | parameter (name : String) : Regular (.parameter name)
  | boundVariable (name : String) : Regular (.variable name)
  | unary {operand : Expression} (operator : UnaryOperator) (regular : Regular operand) :
      Regular (.unary operator operand)
  | binary {operator : BinaryOperator} {left right : Expression} (noRange : operator ≠ .between)
      (leftRegular : Regular left) (rightRegular : Regular right) :
      Regular (.binary operator left right)
  | range {operand lower upper : Expression} (regular : Regular operand)
      (lowerRegular : Regular lower) (upperRegular : Regular upper) :
      Regular (operand.between lower upper)
  | compound {operands : List Expression} (operator : CompoundOperator)
      (regular : ∀ operand ∈ operands, Regular operand) : Regular (.compound operator operands)
  | aggregate {items : List Expression} (regular : ∀ item ∈ items, Regular item) :
      Regular (.aggregate items)
  | collated {operand : Expression} (regular : Regular operand) (collation : Collation) :
      Regular (.collated operand collation)
  | call (function : BuiltinFunction) {arguments : List Expression}
      (regular : ∀ argument ∈ arguments, Regular argument) :
      Regular (.function function.name arguments)
  | fullTextMatch (index query : String) : Regular (.fullTextMatch index query)

namespace Regular

theorem taken {expression : Expression} (regular : Regular expression) (source : Option String) :
    Regular (expression.taken source) := by
  unfold Expression.taken
  split
  · exact .property _ _ _
  · exact .metadata _ _ _
  · exact regular

theorem compoundPair {left right : Expression} (operator : CompoundOperator)
    (leftRegular : Regular left) (rightRegular : Regular right) :
    Regular (.compound operator [left, right]) :=
  .compound operator (by simp [leftRegular, rightRegular])

theorem isNullOrMissing {operand : Expression} (regular : Regular operand) :
    Regular operand.isNullOrMissing :=
  compoundPair .or (.unary .null regular) (.unary .missing regular)

theorem negated {expression : Expression} (regular : Regular expression) :
    Regular expression.negated :=
  .compound .not (by simp [regular])

theorem ofFactory? {name : String} {values : List Value} {made : Expression}
    (scalars : ∀ value ∈ values, value.IsScalar)
    (making : Expression.ofFactory? name values = some made) : Regular made := by
  unfold Expression.ofFactory? at making
  split at making
  · cases making
    exact .property _ _ _
  · cases making
    exact .property _ _ _
  · cases making
    exact .parameter _
  · cases making
    exact .boundVariable _
  · split at making
    · cases making
      exact .literal (scalars _ List.mem_cons_self)
    · cases making
  · cases making

theorem documentProperty {name : String} {made : Expression}
    (found : Table.value? documentProperties name = some made) : Regular made := by
  have member := Table.mem_of_value? found
  simp only [documentProperties, List.mem_cons, Prod.mk.injEq, List.not_mem_nil, or_false] at member
  rcases member with ⟨-, rfl⟩ | ⟨-, rfl⟩ | ⟨-, rfl⟩ | ⟨-, rfl⟩ <;> exact .metadata _ _ _

theorem builderOperator?_ne_between (method : String) :
    builderOperator? method ≠ some .between := by
  unfold builderOperator?
  split <;> simp

theorem build? {receiver made : Expression} {name : String} {operands : List Expression}
    (regular : Regular receiver) (operandsRegular : ∀ operand ∈ operands, Regular operand)
    (making : receiver.build? name operands = some made) : Regular made := by
  unfold Expression.build? at making
  split at making
  · next operator operand found =>
      cases making
      refine .binary ?_ regular (operandsRegular _ List.mem_cons_self)
      rintro rfl
      exact builderOperator?_ne_between name found
  · split at making
    · cases making
      exact .range regular (operandsRegular _ (by simp)) (operandsRegular _ (by simp))
    · cases making
      exact .binary (by decide) regular (.aggregate operandsRegular)
    · cases making
      exact compoundPair .and regular (operandsRegular _ List.mem_cons_self)
    · cases making
      exact compoundPair .or regular (operandsRegular _ List.mem_cons_self)
    · cases making
      exact regular.isNullOrMissing
    · cases making
      exact regular.isNullOrMissing.negated
    · cases making

theorem functionCall (function : BuiltinFunction) {arguments : List Expression}
    (regular : ∀ argument ∈ arguments, Regular argument) : Regular (function.call arguments) := by
  unfold BuiltinFunction.call
  split
  · exact .call .round fun argument member => regular argument (by simp_all)
  · exact .call function regular

end Regular

/-- Whatever a program builds has a regular shape. -/
theorem Built.regular {expression : Expression} (built : Built expression) : Regular expression := by
  induction built with
  | factory scalars making => exact .ofFactory? scalars making
  | documentProperty found => exact .documentProperty found
  | allFrom source => exact .property _ _ _
  | taken _ source regular => exact regular.taken source
  | presence _ operator regular => exact .unary operator regular
  | negated _ regular => exact regular.negated
  | method _ _ making receiverRegular operandsRegular =>
      exact receiverRegular.build? operandsRegular making
  | collated _ collation regular => exact .collated regular collation
  | call function _ regular => exact .functionCall function regular
  | fullTextMatch index query => exact .fullTextMatch index query

end Expression

end DocumentStore
