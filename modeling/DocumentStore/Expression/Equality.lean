import DocumentStore.Expression.Basic

/-!
Contract: equality of predicate trees.

Owns: the comparison node by node, literals compared as values.

Does not own: the comparison of values, which is that of their trees.

Two trees are equal when their nodes are of the same kind and all parts are equal;
an expression of no kind is equal to itself alone.
-/

set_option autoImplicit false

namespace DocumentStore.Expression

/-- Equality of two values of a store. -/
def equalValues (store : Store) (left right : Value) : Bool :=
  (store.unfold left).equal (store.unfold right)

mutual

/-- Equality of two trees. -/
def equal (store : Store) : Expression → Expression → Bool
  | .literal left, .literal right => equalValues store left right
  | .property path source column, .property path' source' column' =>
      path == path' && source == source' && column == column'
  | .metadata path column source, .metadata path' column' source' =>
      path == path' && column == column' && source == source'
  | .parameter name, .parameter name' => name == name'
  | .variable name, .variable name' => name == name'
  | .unary operator operand, .unary operator' operand' =>
      equal store operand operand' && operator == operator'
  | .binary operator left right, .binary operator' left' right' =>
      equal store left left' && equal store right right' && operator == operator'
  | .compound operator operands, .compound operator' operands' =>
      equalAll store operands operands' && operator == operator'
  | .aggregate items, .aggregate items' => equalAll store items items'
  | .collated operand collation, .collated operand' collation' =>
      equal store operand operand' && collation == collation'
  | .function name arguments, .function name' arguments' =>
      name == name' && equalAll store arguments arguments'
  | .fullTextMatch index query, .fullTextMatch index' query' =>
      index == index' && query == query'
  | .bare identity, .bare identity' => identity == identity'
  | .foreign left, .foreign right => equalValues store left right
  | _, _ => false

/-- Equality of two lists of trees. -/
def equalAll (store : Store) : List Expression → List Expression → Bool
  | [], [] => true
  | left :: leftRest, right :: rightRest =>
      equal store left right && equalAll store leftRest rightRest
  | _, _ => false

end

end DocumentStore.Expression
