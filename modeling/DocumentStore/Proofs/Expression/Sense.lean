import DocumentStore.Expression.Equality
import DocumentStore.Proofs.Heap.Equality

/-!
Contract: equality of predicate trees is sameness of what they stand for.

Owns: what a predicate tree stands for, and the trees for which equality decides whether they stand
for the same.

Does not own: what equal trees are rendered as.

A tree stands for its nodes, with what its values stand for. Sameness of this is an equivalence from
the start.
-/

set_option autoImplicit false

namespace DocumentStore

/-! ### What predicate trees stand for -/

/-- A predicate tree with what its values stand for. -/
inductive Sense where
  | literal (meaning : Meaning)
  | property (path : String) (source column : Option String)
  | metadata (path : String) (column source : Option String)
  | parameter (name : String)
  | boundVariable (name : String)
  | unary (operator : UnaryOperator) (operand : Sense)
  | binary (operator : BinaryOperator) (left right : Sense)
  | compound (operator : CompoundOperator) (operands : List Sense)
  | aggregate (items : List Sense)
  | collated (operand : Sense) (collation : Collation)
  | function (name : String) (arguments : List Sense)
  | fullTextMatch (index query : String)
  | bare (identity : Ref)
  | foreign (meaning : Meaning)

namespace Expression

mutual

/-- What a tree over the values of a store stands for. -/
def sense (store : Store) : Expression → Sense
  | .literal value => .literal (store.unfold value).meaning
  | .property path source column => .property path source column
  | .metadata path column source => .metadata path column source
  | .parameter name => .parameter name
  | .variable name => .boundVariable name
  | .unary operator operand => .unary operator (sense store operand)
  | .binary operator left right => .binary operator (sense store left) (sense store right)
  | .compound operator operands => .compound operator (senses store operands)
  | .aggregate items => .aggregate (senses store items)
  | .collated operand collation => .collated (sense store operand) collation
  | .function name arguments => .function name (senses store arguments)
  | .fullTextMatch index query => .fullTextMatch index query
  | .bare identity => .bare identity
  | .foreign value => .foreign (store.unfold value).meaning

def senses (store : Store) : List Expression → List Sense
  | [] => []
  | expression :: rest => sense store expression :: senses store rest

end

mutual

/-- The values of a tree: its literals, and whatever stands in the place of an operand. -/
def values : Expression → List Value
  | .literal value => [value]
  | .unary _ operand => values operand
  | .binary _ left right => values left ++ values right
  | .compound _ operands => valuesOf operands
  | .aggregate items => valuesOf items
  | .collated operand _ => values operand
  | .function _ arguments => valuesOf arguments
  | .foreign value => [value]
  | _ => []

def valuesOf : List Expression → List Value
  | [] => []
  | expression :: rest => values expression ++ valuesOf rest

end

/-- The values of a tree are without circles and without not-a-number. -/
def Comparable (store : Store) (expression : Expression) : Prop :=
  ∀ value ∈ expression.values, store.Comparable value

/-- The values of all trees are without circles and without not-a-number. -/
def AllComparable (store : Store) (expressions : List Expression) : Prop :=
  ∀ value ∈ valuesOf expressions, store.Comparable value

variable {store : Store}

theorem allComparable_cons {expression : Expression} {rest : List Expression} :
    AllComparable store (expression :: rest)
      ↔ expression.Comparable store ∧ AllComparable store rest := by
  rw [AllComparable, valuesOf, List.forall_mem_append]
  exact Iff.rfl

theorem comparable_binary {operator : BinaryOperator} {left right : Expression} :
    (binary operator left right).Comparable store
      ↔ left.Comparable store ∧ right.Comparable store := by
  rw [Comparable, values, List.forall_mem_append]
  exact Iff.rfl

/-! ### Equality -/

theorem equalValues_iff_meaning {left right : Value} (wellKeyed : store.WellKeyed)
    (comparable : store.Comparable left) (otherComparable : store.Comparable right) :
    equalValues store left right = true
      ↔ (store.unfold left).meaning = (store.unfold right).meaning :=
  Tree.equal_iff_meaning _ _ (comparable.unfold wellKeyed) (otherComparable.unfold wellKeyed)

mutual

/-- Trees over values without circles and not-a-number are equal exactly if they stand for the
same. -/
theorem equal_iff_sense (wellKeyed : store.WellKeyed) (left right : Expression)
    (comparable : left.Comparable store) (otherComparable : right.Comparable store) :
    equal store left right = true ↔ left.sense store = right.sense store := by
  cases left with
  | literal value =>
      cases right with
      | literal other =>
          rw [equal, sense, sense, Sense.literal.injEq]
          exact equalValues_iff_meaning wellKeyed (comparable value (List.mem_singleton_self value))
            (otherComparable other (List.mem_singleton_self other))
      | _ => simp [equal, sense]
  | foreign value =>
      cases right with
      | foreign other =>
          rw [equal, sense, sense, Sense.foreign.injEq]
          exact equalValues_iff_meaning wellKeyed (comparable value (List.mem_singleton_self value))
            (otherComparable other (List.mem_singleton_self other))
      | _ => simp [equal, sense]
  | unary operator operand =>
      cases right with
      | unary other further =>
          have inner := equal_iff_sense wellKeyed operand further comparable otherComparable
          simp [equal, sense, inner, and_comm]
      | _ => simp [equal, sense]
  | binary operator left right' =>
      cases right with
      | binary other otherLeft otherRight =>
          obtain ⟨first, second⟩ := comparable_binary.1 comparable
          obtain ⟨otherFirst, otherSecond⟩ := comparable_binary.1 otherComparable
          have leftInner := equal_iff_sense wellKeyed left otherLeft first otherFirst
          have rightInner := equal_iff_sense wellKeyed right' otherRight second otherSecond
          simp [equal, sense, leftInner, rightInner, and_comm]
      | _ => simp [equal, sense]
  | compound operator operands =>
      cases right with
      | compound other others =>
          have inner := equalAll_iff_senses wellKeyed operands others comparable otherComparable
          simp [equal, sense, inner, and_comm]
      | _ => simp [equal, sense]
  | aggregate items =>
      cases right with
      | aggregate others =>
          have inner := equalAll_iff_senses wellKeyed items others comparable otherComparable
          simp [equal, sense, inner]
      | _ => simp [equal, sense]
  | collated operand collation =>
      cases right with
      | collated further other =>
          have inner := equal_iff_sense wellKeyed operand further comparable otherComparable
          simp [equal, sense, inner]
      | _ => simp [equal, sense]
  | function name arguments =>
      cases right with
      | function other others =>
          have inner := equalAll_iff_senses wellKeyed arguments others comparable otherComparable
          simp [equal, sense, inner]
      | _ => simp [equal, sense]
  | _ =>
      -- a node without operands
      cases right with
      | _ => simp [equal, sense, and_assoc]

theorem equalAll_iff_senses (wellKeyed : store.WellKeyed) (left right : List Expression)
    (comparable : AllComparable store left) (otherComparable : AllComparable store right) :
    equalAll store left right = true ↔ senses store left = senses store right := by
  cases left with
  | nil => cases right <;> simp [equalAll, senses]
  | cons expression rest =>
      cases right with
      | nil => simp [equalAll, senses]
      | cons other others =>
          obtain ⟨first, remaining⟩ := allComparable_cons.1 comparable
          obtain ⟨otherFirst, otherRemaining⟩ := allComparable_cons.1 otherComparable
          rw [equalAll, senses, senses, Bool.and_eq_true, List.cons.injEq,
            equal_iff_sense wellKeyed expression other first otherFirst,
            equalAll_iff_senses wellKeyed rest others remaining otherRemaining]

end

end Expression

end DocumentStore
