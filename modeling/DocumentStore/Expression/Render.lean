import DocumentStore.Expression.Basic
import DocumentStore.Calendar.Timestamp

/-!
Contract: predicate trees as nested arrays.

Owns: the rendering of every node, and its refusals.

Does not own: the containers that a rendered literal refers to; they are shared with
the tree.

Nodes are rendered left to right, depth first, and the first one that cannot be
rendered is the failure.
-/

set_option autoImplicit false

namespace DocumentStore.Expression

/-- A dotted path, after its source if one is named. -/
def renderPath (path : String) (source : Option String) : Draft :=
  match source with
  | some "" => .array [.text ("." ++ path)]
  | some source => .array [.text ("." ++ source ++ "." ++ path)]
  | none => .array [.text ("." ++ path)]

/-- A literal; a moment is rendered as its timestamp. -/
def renderLiteral : Value → Except Failure Draft
  | .moment moment =>
      match Calendar.Timestamp.write? moment with
      | some timestamp => .ok (.text timestamp)
      | none => .error .outsideCalendar
  | value => .ok (.value value)

/-- The kind of a plain value in an operand position. Containers are named by what the store
holds, so the kind is that of the value at the time. -/
def foreignKind (store : Store) (value : Value) : Kind :=
  store.kind value

mutual

/-- The rendering of a tree. -/
def render (store : Store) : Expression → Except Failure Draft
  | .literal value => renderLiteral value
  | .property path source _ => .ok (renderPath path source)
  | .metadata path _ source => .ok (renderPath path source)
  | .parameter name => .ok (.array [.text ("$" ++ name)])
  | .variable name => .ok (.array [.text ("?" ++ name)])
  | .unary operator operand => do
      let rendered ← render store operand
      return match operator with
        | .missing => .array [.text "IS", rendered, .array [.text "MISSING"]]
        | .notMissing => .array [.text "IS NOT", rendered, .array [.text "MISSING"]]
        | .null => .array [.text "IS", rendered, .value .null]
        | .notNull => .array [.text "IS NOT", rendered, .value .null]
  | .binary .between operand (.aggregate [lower, upper]) => do
      let rendered ← render store operand
      let renderedLower ← render store lower
      let renderedUpper ← render store upper
      return .array [.text BinaryOperator.between.symbol, rendered, renderedLower, renderedUpper]
  | .binary operator left right => do
      let renderedLeft ← render store left
      let renderedRight ← render store right
      return .array [.text operator.symbol, renderedLeft, renderedRight]
  | .compound operator operands => do
      let rendered ← renderAll store operands
      return .array (.text operator.symbol :: rendered)
  | .aggregate items => do
      let rendered ← renderAll store items
      return .array (.text "[]" :: rendered)
  | .collated operand collation => do
      let rendered ← render store operand
      return .array [.text "COLLATE", collation.render, rendered]
  | .function name arguments => do
      let rendered ← renderAll store arguments
      return .array (.text name :: rendered)
  | .fullTextMatch index query => .ok (.array [.text "MATCH()", .text index, .text query])
  | .bare _ => .error (.unsupportedOperand .expression)
  | .foreign value => .error (.unsupportedOperand (foreignKind store value))

/-- The renderings of several trees. -/
def renderAll (store : Store) : List Expression → Except Failure (List Draft)
  | [] => .ok []
  | expression :: rest => do
      let rendered ← render store expression
      let others ← renderAll store rest
      return rendered :: others

end

end DocumentStore.Expression
