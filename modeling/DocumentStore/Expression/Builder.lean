import DocumentStore.Expression.Basic

/-!
Contract: operators, functions and builders by name.

Owns: the names under which a program refers to the operators, to the built-in
functions and to the properties of a document itself, and the factories and builder
methods of expressions.

Does not own: the written forms of operators, which an engine reads.
-/

set_option autoImplicit false

namespace DocumentStore

/-- The test of presence of a name. -/
def UnaryOperator.named? : String → Option UnaryOperator
  | "MISSING" => some .missing
  | "NOT_MISSING" => some .notMissing
  | "NULL" => some .null
  | "NOT_NULL" => some .notNull
  | _ => none

/-- The operator of a name. -/
def BinaryOperator.named? : String → Option BinaryOperator
  | "ADD" => some .add
  | "BETWEEN" => some .between
  | "DIVIDE" => some .divide
  | "EQUAL_TO" => some .equalTo
  | "GREATER_THAN" => some .greaterThan
  | "GREATER_THAN_OR_EQUAL_TO" => some .greaterThanOrEqualTo
  | "IN" => some .isIn
  | "IS" => some .is
  | "IS_NOT" => some .isNot
  | "LESS_THAN" => some .lessThan
  | "LESS_THAN_OR_EQUAL_TO" => some .lessThanOrEqualTo
  | "LIKE" => some .like
  | "MODULUS" => some .modulus
  | "MULTIPLY" => some .multiply
  | "NOT_EQUAL_TO" => some .notEqualTo
  | "REGEX_LIKE" => some .regexLike
  | "SUBTRACT" => some .subtract
  | _ => none

/-- The operator of a name. -/
def CompoundOperator.named? : String → Option CompoundOperator
  | "AND" => some .and
  | "OR" => some .or
  | "NOT" => some .not
  | _ => none

/-- The function of a name. -/
def BuiltinFunction.named? : String → Option BuiltinFunction
  | "avg" => some .average
  | "count" => some .count
  | "min" => some .minimum
  | "max" => some .maximum
  | "sum" => some .sum
  | "abs" => some .absolute
  | "ceil" => some .ceiling
  | "floor" => some .floor
  | "round" => some .round
  | "sqrt" => some .squareRoot
  | "lower" => some .lower
  | "upper" => some .upper
  | "length" => some .length
  | "trim" => some .trim
  | "contains" => some .contains
  | "array_contains" => some .arrayContains
  | "array_length" => some .arrayLength
  | _ => none

namespace Expression

/-- The properties of a document itself, by name. There is one expression for each of them,
wherever it is used. -/
def documentProperties : Table String Expression :=
  [("id", identifierProperty), ("sequence", sequenceProperty), ("deleted", deletedProperty),
    ("expiration", expirationProperty)]

/-- The factories that make a literal of a value, whatever the value is. -/
def literalFactories : List String :=
  ["value", "string", "number", "int_value", "long_value", "float_value", "double_value",
    "boolean_value", "date"]

/-- What a factory makes of some values, if there is such a factory. -/
def ofFactory? (factory : String) (values : List Value) : Option Expression :=
  match factory, values with
  | "all", [] => some all
  | "property", [.text path] => some (ofProperty path)
  | "parameter", [.text name] => some (.parameter name)
  | "variable", [.text name] => some (.variable name)
  | _, [value] => if factory ∈ literalFactories then some (.literal value) else none
  | _, _ => none

/-- The operator that a builder method of two operands applies. -/
def builderOperator? : String → Option BinaryOperator
  | "multiply" => some .multiply
  | "divide" => some .divide
  | "modulo" => some .modulus
  | "add" => some .add
  | "subtract" => some .subtract
  | "less_than" => some .lessThan
  | "less_than_or_equal_to" => some .lessThanOrEqualTo
  | "greater_than" => some .greaterThan
  | "greater_than_or_equal_to" => some .greaterThanOrEqualTo
  | "equal_to" => some .equalTo
  | "not_equal_to" => some .notEqualTo
  | "like" => some .like
  | "regex" => some .regexLike
  | "is_" => some .is
  | "is_not" => some .isNot
  | _ => none

/-- What a builder method makes of an expression and some operands, if there is such a method. -/
def build? (receiver : Expression) (method : String) (operands : List Expression) :
    Option Expression :=
  match builderOperator? method, operands with
  | some operator, [operand] => some (.binary operator receiver operand)
  | _, _ =>
      match method, operands with
      | "between", [lower, upper] => some (receiver.between lower upper)
      | "in_", candidates => some (receiver.isIn candidates)
      | "and_", [other] => some (.compound .and [receiver, other])
      | "or_", [other] => some (.compound .or [receiver, other])
      | "is_null_or_missing", [] => some receiver.isNullOrMissing
      | "not_null_or_missing", [] => some receiver.isNullOrMissing.negated
      | _, _ => none

end Expression

end DocumentStore
