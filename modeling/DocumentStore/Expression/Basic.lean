import DocumentStore.Expression.Collation

/-!
Contract: predicate trees.

Owns: the node kinds, the operators with their written forms, and the constructions
that can fail.

Does not own: rendering and equality.

An operand position may hold something that is no predicate: a plain value, or an
expression of no kind at all. Such trees can be built, but not rendered.
-/

set_option autoImplicit false

namespace DocumentStore

/-- Tests of presence. -/
inductive UnaryOperator where
  | missing
  | notMissing
  | null
  | notNull
  deriving DecidableEq

/-- Operators of two operands. -/
inductive BinaryOperator where
  | add
  | between
  | divide
  | equalTo
  | greaterThan
  | greaterThanOrEqualTo
  | isIn
  | is
  | isNot
  | lessThan
  | lessThanOrEqualTo
  | like
  | modulus
  | multiply
  | notEqualTo
  | regexLike
  | subtract
  deriving DecidableEq

/-- The written form of an operator. -/
def BinaryOperator.symbol : BinaryOperator → String
  | add => "+"
  | between => "BETWEEN"
  | divide => "/"
  | equalTo => "="
  | greaterThan => ">"
  | greaterThanOrEqualTo => ">="
  | isIn => "IN"
  | is => "IS"
  | isNot => "IS NOT"
  | lessThan => "<"
  | lessThanOrEqualTo => "<="
  | like => "LIKE"
  | modulus => "%"
  | multiply => "*"
  | notEqualTo => "!="
  | regexLike => "regexp_like()"
  | subtract => "-"

/-- Operators of any number of operands. -/
inductive CompoundOperator where
  | and
  | or
  | not
  deriving DecidableEq

/-- The written form of an operator. -/
def CompoundOperator.symbol : CompoundOperator → String
  | and => "AND"
  | or => "OR"
  | not => "NOT"

/-- A predicate tree. -/
inductive Expression where
  | literal (value : Value)
  | property (path : String) (source column : Option String)
  | metadata (path : String) (column source : Option String)
  | parameter (name : String)
  | variable (name : String)
  | unary (operator : UnaryOperator) (operand : Expression)
  | binary (operator : BinaryOperator) (left right : Expression)
  | compound (operator : CompoundOperator) (operands : List Expression)
  | aggregate (items : List Expression)
  | collated (operand : Expression) (collation : Collation)
  | function (name : String) (arguments : List Expression)
  | fullTextMatch (index query : String)
  /-- An expression of no kind; it has nothing but its identity. -/
  | bare (identity : Ref)
  /-- A plain value where an expression is expected. -/
  | foreign (value : Value)

namespace Expression

/-- A property of the queried collection. -/
def ofProperty (path : String) : Expression :=
  .property path (some "") (some "")

/-- All properties of the queried collection. -/
def all : Expression :=
  ofProperty "*"

/-- All properties of one source of the query. -/
def allFrom (source : Option String) : Expression :=
  .property "" source (some (source.getD ""))

/-- The identifier of a document. -/
def identifierProperty : Expression :=
  .metadata "_id" (some "id") none

/-- The sequence of a document. -/
def sequenceProperty : Expression :=
  .metadata "_sequence" (some "sequence") none

/-- Whether a document is deleted. -/
def deletedProperty : Expression :=
  .metadata "_deleted" (some "deleted") none

/-- The expiration of a document. -/
def expirationProperty : Expression :=
  .metadata "_expiration" (some "expiration") none

/-- The negation of a predicate. -/
def negated (expression : Expression) : Expression :=
  .compound .not [expression]

/-- A test of presence needs an operand. -/
def unary? (operator : UnaryOperator) (operand : Expression) : Except Failure Expression :=
  match operand with
  | .foreign .null => .error .missingOperand
  | _ => .ok (.unary operator operand)

/-- Bounds are an aggregate of two. -/
def isBounds : Expression → Bool
  | .aggregate [_, _] => true
  | _ => false

/-- A range needs its two bounds; every other operator takes any operands. -/
def binary? (operator : BinaryOperator) (left right : Expression) : Except Failure Expression :=
  if operator = .between ∧ ¬right.isBounds then .error .betweenBounds
  else .ok (.binary operator left right)

/-- A value between two bounds. -/
def between (operand lower upper : Expression) : Expression :=
  .binary .between operand (.aggregate [lower, upper])

/-- A value among candidates. -/
def isIn (operand : Expression) (candidates : List Expression) : Expression :=
  .binary .isIn operand (.aggregate candidates)

/-- A value that is null, or none at all. -/
def isNullOrMissing (operand : Expression) : Expression :=
  .compound .or [.unary .null operand, .unary .missing operand]

/-- A property taken from one source of the query; other expressions have no source. -/
def taken (expression : Expression) (source : Option String) : Expression :=
  match expression with
  | .property path _ _ => .property path source (some "")
  | .metadata path _ _ => .metadata path none source
  | other => other

/-- The part of a dotted path after the last dot. -/
def lastPart (path : String) : String :=
  String.ofList (path.toList.reverse.takeWhile (· != '.')).reverse

/-- A given name that is not empty, or the last part of the path. -/
def columnOr (path : String) (column : Option String) : String :=
  match column with
  | some "" => lastPart path
  | some name => name
  | none => lastPart path

/-- The column under which a property is returned. -/
def columnName? : Expression → Option String
  | .property path _ column => some (columnOr path column)
  | .metadata path column _ => some (columnOr path column)
  | _ => none

end Expression

/-- The functions of the query language. -/
inductive BuiltinFunction where
  | average
  | count
  | minimum
  | maximum
  | sum
  | absolute
  | ceiling
  | floor
  | round
  | squareRoot
  | lower
  | upper
  | length
  | trim
  | contains
  | arrayContains
  | arrayLength
  deriving DecidableEq

namespace BuiltinFunction

/-- The written name of a function. -/
def name : BuiltinFunction → String
  | average => "AVG()"
  | count => "COUNT()"
  | minimum => "MIN()"
  | maximum => "MAX()"
  | sum => "SUM()"
  | absolute => "ABS()"
  | ceiling => "CEIL()"
  | floor => "FLOOR()"
  | round => "ROUND()"
  | squareRoot => "SQRT()"
  | lower => "LOWER()"
  | upper => "UPPER()"
  | length => "LENGTH()"
  | trim => "TRIM()"
  | contains => "CONTAINS()"
  | arrayContains => "ARRAY_CONTAINS()"
  | arrayLength => "ARRAY_LENGTH()"

/-- A call. Rounding to no given number of digits leaves the digits out. -/
def call (function : BuiltinFunction) (arguments : List Expression) : Expression :=
  match function, arguments with
  | round, [operand, .foreign .null] => .function round.name [operand]
  | _, _ => .function function.name arguments

end BuiltinFunction

end DocumentStore
