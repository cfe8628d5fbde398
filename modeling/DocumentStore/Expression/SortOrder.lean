import DocumentStore.Expression.Render

/-!
Contract: sort clauses.

Owns: the direction of a clause and its rendering.

Does not own: sorting, which is an engine's work.
-/

set_option autoImplicit false

namespace DocumentStore

/-- A sort clause. -/
structure SortOrder where
  expression : Expression
  isAscending : Bool

namespace SortOrder

/-- The clause that sorts by an expression, upwards. -/
def upwards (expression : Expression) : SortOrder :=
  ⟨expression, true⟩

/-- The rendering of a clause: the expression itself, marked when the order is downwards. -/
def render (store : Store) (order : SortOrder) : Except Failure Draft := do
  let rendered ← order.expression.render store
  return if order.isAscending then rendered else .array [.text "DESC", rendered]

end SortOrder

end DocumentStore
