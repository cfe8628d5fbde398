import DocumentStore.Proofs.Expression.Canonical
import DocumentStore.Proofs.Json.Copy

/-!
Contract: the rendering of a built tree tells the tree.

Owns: the heads of rendered nodes with their words, and the recovery of the canonical tree from a
rendering.

Does not own: renderings of trees that no program builds, such as calls of made-up functions.

The word at the head of an array tells the kind of its node: paths, parameters and variables are
told by their first character, all other kinds by words of their own. Only the words of `IS` and
`IS NOT` stand for two kinds, which the last operand tells apart: the mark of a missing value is
the rendering of no tree.
-/

set_option autoImplicit false

namespace DocumentStore

namespace Expression

/-! ### Heads -/

/-- What the first word of a rendered node says. -/
inductive Head where
  | path (path : String)
  | parameter (name : String)
  | bound (name : String)
  | operator (operator : BinaryOperator)
  | compound (operator : CompoundOperator)
  | aggregate
  | collated
  | function (function : BuiltinFunction)
  | fullTextMatch

namespace Head

/-- The word of a head. -/
def word : Head → String
  | .path text => "." ++ text
  | .parameter name => "$" ++ name
  | .bound name => "?" ++ name
  | .operator symbolOperator => symbolOperator.symbol
  | .compound symbolOperator => symbolOperator.symbol
  | .aggregate => "[]"
  | .collated => "COLLATE"
  | .function builtin => builtin.name
  | .fullTextMatch => "MATCH()"

/-- The head of a word that stands for itself. -/
def ofFixed? : String → Option Head
  | "+" => some (operator .add)
  | "BETWEEN" => some (operator .between)
  | "/" => some (operator .divide)
  | "=" => some (operator .equalTo)
  | ">" => some (operator .greaterThan)
  | ">=" => some (operator .greaterThanOrEqualTo)
  | "IN" => some (operator .isIn)
  | "IS" => some (operator .is)
  | "IS NOT" => some (operator .isNot)
  | "<" => some (operator .lessThan)
  | "<=" => some (operator .lessThanOrEqualTo)
  | "LIKE" => some (operator .like)
  | "%" => some (operator .modulus)
  | "*" => some (operator .multiply)
  | "!=" => some (operator .notEqualTo)
  | "regexp_like()" => some (operator .regexLike)
  | "-" => some (operator .subtract)
  | "AND" => some (compound .and)
  | "OR" => some (compound .or)
  | "NOT" => some (compound .not)
  | "[]" => some aggregate
  | "COLLATE" => some collated
  | "AVG()" => some (function .average)
  | "COUNT()" => some (function .count)
  | "MIN()" => some (function .minimum)
  | "MAX()" => some (function .maximum)
  | "SUM()" => some (function .sum)
  | "ABS()" => some (function .absolute)
  | "CEIL()" => some (function .ceiling)
  | "FLOOR()" => some (function .floor)
  | "ROUND()" => some (function .round)
  | "SQRT()" => some (function .squareRoot)
  | "LOWER()" => some (function .lower)
  | "UPPER()" => some (function .upper)
  | "LENGTH()" => some (function .length)
  | "TRIM()" => some (function .trim)
  | "CONTAINS()" => some (function .contains)
  | "ARRAY_CONTAINS()" => some (function .arrayContains)
  | "ARRAY_LENGTH()" => some (function .arrayLength)
  | "MATCH()" => some fullTextMatch
  | _ => none

/-- The head of a word. -/
def ofWord? (word : String) : Option Head :=
  match word.toList with
  | '.' :: rest => some (path (String.ofList rest))
  | '$' :: rest => some (parameter (String.ofList rest))
  | '?' :: rest => some (bound (String.ofList rest))
  | _ => ofFixed? word

/-- No two heads have one word. -/
@[simp] theorem ofWord?_word (head : Head) : ofWord? head.word = some head := by
  cases head with
  | path text => simp [ofWord?, word]
  | parameter name => simp [ofWord?, word]
  | bound name => simp [ofWord?, word]
  | operator symbolOperator => cases symbolOperator <;> rfl
  | compound symbolOperator => cases symbolOperator <;> rfl
  | aggregate => rfl
  | collated => rfl
  | function builtin => cases builtin <;> rfl
  | fullTextMatch => rfl

end Head

/-! ### Recovery -/

/-- A rendered collation, read back without its family. -/
def readCollation? : Draft → Option Collation
  | .object [(_, .value (.boolean isUnicode)), (_, .value locale),
      (_, .value (.boolean heedsCase)), (_, .value (.boolean heedsAccents))] =>
      let collation (locale : Option String) : Collation :=
        ⟨.plain, isUnicode, !heedsCase, !heedsAccents, locale⟩
      match locale with
      | .text locale => some (collation (some locale))
      | .null => some (collation none)
      | _ => none
  | _ => none

/-- Several trees, if there are no others among them. -/
def all? : List (Option Expression) → Option (List Expression)
  | [] => some []
  | none :: _ => none
  | some expression :: rest => (all? rest).map (expression :: ·)

/-- The node of a head whose operands are recovered. -/
def node? (head : Head) (parts : List Draft) (operands : List (Option Expression)) :
    Option Expression :=
  match head, operands with
  | .path text, [] => some (.property text none none)
  | .parameter name, [] => some (.parameter name)
  | .bound name, [] => some (.variable name)
  | .operator .is, [some operand, none] => some (.unary .missing operand)
  | .operator .isNot, [some operand, none] => some (.unary .notMissing operand)
  | .operator .between, [some operand, some lower, some upper] =>
      some (operand.between lower upper)
  | .operator operator, [some left, some right] => some (.binary operator left right)
  | .compound operator, operands => (all? operands).map (.compound operator)
  | .aggregate, operands => (all? operands).map .aggregate
  | .function builtin, operands => (all? operands).map (.function builtin.name)
  | .collated, [_, some operand] =>
      (parts.head?.bind readCollation?).map (.collated operand)
  | .fullTextMatch, [some (.literal (.text index)), some (.literal (.text query))] =>
      some (.fullTextMatch index query)
  | _, _ => none

mutual

/-- The canonical tree of a rendering. -/
def recover : Draft → Option Expression
  | .value value => some (.literal value)
  | .array (.value (.text word) :: parts) =>
      (Head.ofWord? word).bind fun head => node? head parts (recoverAll parts)
  | _ => none

/-- The canonical trees of several renderings. -/
def recoverAll : List Draft → List (Option Expression)
  | [] => []
  | draft :: rest => recover draft :: recoverAll rest

end

/-- A rendered node is recovered from its head and the recovery of its operands. -/
theorem recover_node (head : Head) (parts : List Draft) :
    recover (.array (.text head.word :: parts)) = node? head parts (recoverAll parts) := by
  rw [Draft.text, recover, Head.ofWord?_word, Option.bind_some]

@[simp] theorem all?_map_some (expressions : List Expression) :
    all? (expressions.map some) = some expressions := by
  induction expressions with
  | nil => rfl
  | cons expression rest inductionHypothesis =>
      simp only [List.map_cons, all?, inductionHypothesis, Option.map_some]

/-- Reading a rendered collation back forgets its family alone. -/
theorem readCollation?_render (collation : Collation) :
    readCollation? collation.render = some { collation with family := .plain } := by
  obtain ⟨family, isUnicode, ignoresCase, ignoresAccents, locale⟩ := collation
  cases locale <;> simp [Collation.render, Draft.optionalText, readCollation?]

/-- The draft of a JSON tree. -/
def IsJson (draft : Draft) : Prop :=
  ∃ json : Json, draft = json.draft

theorem isJson_array {drafts : List Draft} (jsons : ∀ draft ∈ drafts, IsJson draft) :
    IsJson (.array drafts) := by
  suffices items : ∃ items, drafts = Json.itemDrafts items by
    obtain ⟨items, rfl⟩ := items
    exact ⟨.array items, rfl⟩
  induction drafts with
  | nil => exact ⟨[], rfl⟩
  | cons draft rest inductionHypothesis =>
      obtain ⟨item, rfl⟩ := jsons draft List.mem_cons_self
      obtain ⟨items, rfl⟩ :=
        inductionHypothesis fun other member => jsons other (List.mem_cons_of_mem _ member)
      exact ⟨item :: items, rfl⟩

theorem isJson_text (text : String) : IsJson (.text text) :=
  ⟨.text text, rfl⟩

theorem isJson_collation (collation : Collation) : IsJson collation.render := by
  obtain ⟨family, isUnicode, ignoresCase, ignoresAccents, locale⟩ := collation
  cases locale with
  | none =>
      exact ⟨.object [("UNICODE", .boolean isUnicode), ("LOCALE", .null),
        ("CASE", .boolean (!ignoresCase)), ("DIAC", .boolean (!ignoresAccents))], rfl⟩
  | some locale =>
      exact ⟨.object [("UNICODE", .boolean isUnicode), ("LOCALE", .text locale),
        ("CASE", .boolean (!ignoresCase)), ("DIAC", .boolean (!ignoresAccents))], rfl⟩

/-- A draft is JSON, and tells the tree it is the rendering of. -/
structure Tells (draft : Draft) (expression : Expression) : Prop where
  recovered : recover draft = some expression
  isJson : IsJson draft

namespace Tells

variable {store : Store} {draft : Draft} {drafts : List Draft} {expressions : List Expression}

theorem text (text : String) : Tells (.text text) (.literal (.text text)) :=
  ⟨rfl, isJson_text text⟩

/-- A scalar is rendered as itself, a moment as its timestamp. -/
theorem literal {value : Value} (scalar : value.IsScalar)
    (rendering : render store (.literal value) = .ok draft) :
    Tells draft (.literal (canonicalValue value)) := by
  rw [render, ← renderLiteral_canonicalValue] at rendering
  cases value with
  | bytes content => exact scalar.elim
  | cell ref => exact scalar.elim
  | moment moment =>
      cases written : Calendar.Timestamp.write? moment with
      | none => simp [renderLiteral, canonicalValue, written] at rendering
      | some timestamp =>
          simp only [renderLiteral, canonicalValue, written, Except.ok.injEq] at rendering ⊢
          subst rendering
          exact .text timestamp
  | null =>
      cases rendering
      exact ⟨rfl, .null, rfl⟩
  | boolean truth =>
      cases rendering
      exact ⟨rfl, .boolean truth, rfl⟩
  | integer number =>
      cases rendering
      exact ⟨rfl, .integer number, rfl⟩
  | double number =>
      cases rendering
      exact ⟨rfl, .double number, rfl⟩
  | text text =>
      cases rendering
      exact .text text

theorem recoverAll_eq (tells : List.Forall₂ Tells drafts expressions) :
    recoverAll drafts = expressions.map some := by
  induction tells with
  | nil => rfl
  | cons first _ inductionHypothesis =>
      rw [recoverAll, first.recovered, inductionHypothesis, List.map_cons]

theorem jsons (tells : List.Forall₂ Tells drafts expressions) : ∀ draft ∈ drafts, IsJson draft := by
  induction tells with
  | nil => simp
  | cons first _ inductionHypothesis =>
      exact List.forall_mem_cons.2 ⟨first.isJson, inductionHypothesis⟩

/-- A node tells its tree where its head and operands do. -/
theorem node {expression : Expression} (head : Head)
    (tells : List.Forall₂ Tells drafts expressions)
    (isNode : node? head drafts (expressions.map some) = some expression) :
    Tells (.array (.text head.word :: drafts)) expression where
  recovered := by rw [recover_node, recoverAll_eq tells, isNode]
  isJson := isJson_array (List.forall_mem_cons.2 ⟨isJson_text _, jsons tells⟩)

/-- The last operand of a test of presence is the mark of a missing value. -/
theorem presence {operand expression : Expression} {rendered : Draft} (head : Head)
    (tells : Tells rendered operand)
    (isNode : ∀ parts, node? head parts [some operand, none] = some expression) :
    Tells (.array [.text head.word, rendered, .array [.text "MISSING"]]) expression where
  recovered := by
    rw [recover_node, recoverAll, tells.recovered]
    exact isNode _
  isJson := by
    have mark : IsJson (.array [.text "MISSING"]) := ⟨.array [.text "MISSING"], rfl⟩
    refine isJson_array ?_
    simp only [List.forall_mem_cons]
    exact ⟨isJson_text _, tells.isJson, mark, by simp⟩

theorem collated {operand : Expression} {rendered : Draft} (collation : Collation)
    (tells : Tells rendered operand) :
    Tells (.array [.text "COLLATE", collation.render, rendered])
      (.collated operand { collation with family := .plain }) where
  recovered := by
    show recover (.array (.text Head.collated.word :: _)) = _
    rw [recover_node, recoverAll, recoverAll, recoverAll, tells.recovered]
    simp only [node?, List.head?_cons, Option.bind_some, readCollation?_render, Option.map_some]
  isJson := by
    refine isJson_array ?_
    simp only [List.forall_mem_cons]
    exact ⟨isJson_text _, isJson_collation collation, tells.isJson, by simp⟩

/-- Operands that all tell their trees do so one after the other. -/
theorem all (tells : ∀ expression ∈ expressions, ∀ draft,
      render store expression = .ok draft → Tells draft expression.canonical)
    (rendering : renderAll store expressions = .ok drafts) :
    List.Forall₂ Tells drafts (canonicalAll expressions) := by
  induction expressions generalizing drafts with
  | nil =>
      cases rendering
      exact .nil
  | cons expression rest inductionHypothesis =>
      rw [renderAll] at rendering
      obtain ⟨first, renderedFirst, rendering⟩ := Tree.bind_eq_ok.1 rendering
      obtain ⟨others, renderedOthers, rendering⟩ := Tree.bind_eq_ok.1 rendering
      cases rendering
      refine .cons (tells _ List.mem_cons_self _ renderedFirst) (inductionHypothesis ?_ renderedOthers)
      exact fun other member => tells other (List.mem_cons_of_mem _ member)

end Tells

theorem node?_binary (operator : BinaryOperator) (parts : List Draft) (left right : Expression) :
    node? (.operator operator) parts [some left, some right] =
      some (.binary operator left right) := by
  cases operator <;> rfl

/-- The rendering of a tree of regular shape tells its canonical tree. -/
theorem tells_render {store : Store} {expression : Expression} (regular : Regular expression)
    {draft : Draft} (rendering : render store expression = .ok draft) :
    Tells draft expression.canonical := by
  induction regular generalizing draft with
  | literal scalar => exact .literal scalar rendering
  | property path source column =>
      rw [render, renderPath_eq] at rendering
      cases rendering
      exact .node (.path _) .nil rfl
  | metadata path column source =>
      rw [render, renderPath_eq] at rendering
      cases rendering
      exact .node (.path _) .nil rfl
  | parameter name =>
      cases rendering
      exact .node (.parameter name) .nil rfl
  | boundVariable name =>
      cases rendering
      exact .node (.bound name) .nil rfl
  | @unary operand operator regular inductionHypothesis =>
      rw [render] at rendering
      obtain ⟨rendered, renderedOperand, rendering⟩ := Tree.bind_eq_ok.1 rendering
      have tells := inductionHypothesis renderedOperand
      have tellsNull : Tells (.value .null) (.literal .null) := ⟨rfl, .null, rfl⟩
      -- The canonical tree of a test for null is a comparison, so the two kinds of tests differ.
      cases operator with
      | missing =>
          cases rendering
          exact .presence (.operator .is) tells fun _ => rfl
      | notMissing =>
          cases rendering
          exact .presence (.operator .isNot) tells fun _ => rfl
      | null =>
          cases rendering
          exact .node (.operator .is) (.cons tells (.cons tellsNull .nil)) rfl
      | notNull =>
          cases rendering
          exact .node (.operator .isNot) (.cons tells (.cons tellsNull .nil)) rfl
  | @binary operator left right noRange _ _ leftHypothesis rightHypothesis =>
      rw [render_binary (by simp [noRange])] at rendering
      obtain ⟨renderedLeft, leftRendering, rendering⟩ := Tree.bind_eq_ok.1 rendering
      obtain ⟨renderedRight, rightRendering, rendering⟩ := Tree.bind_eq_ok.1 rendering
      cases rendering
      refine .node (.operator operator)
        (.cons (leftHypothesis leftRendering) (.cons (rightHypothesis rightRendering) .nil)) ?_
      exact node?_binary operator _ _ _
  | range _ _ _ operandHypothesis lowerHypothesis upperHypothesis =>
      rw [between, render] at rendering
      obtain ⟨rendered, operandRendering, rendering⟩ := Tree.bind_eq_ok.1 rendering
      obtain ⟨renderedLower, lowerRendering, rendering⟩ := Tree.bind_eq_ok.1 rendering
      obtain ⟨renderedUpper, upperRendering, rendering⟩ := Tree.bind_eq_ok.1 rendering
      cases rendering
      exact .node (.operator .between) (.cons (operandHypothesis operandRendering)
        (.cons (lowerHypothesis lowerRendering) (.cons (upperHypothesis upperRendering) .nil))) rfl
  | compound operator _ inductionHypothesis =>
      rw [render] at rendering
      obtain ⟨rendered, operandsRendering, rendering⟩ := Tree.bind_eq_ok.1 rendering
      cases rendering
      refine .node (.compound operator) (Tells.all (fun _ member _ => inductionHypothesis _ member)
        operandsRendering) ?_
      simp only [node?, all?_map_some, Option.map_some, canonical]
  | aggregate _ inductionHypothesis =>
      rw [render] at rendering
      obtain ⟨rendered, itemsRendering, rendering⟩ := Tree.bind_eq_ok.1 rendering
      cases rendering
      refine .node .aggregate (Tells.all (fun _ member _ => inductionHypothesis _ member)
        itemsRendering) ?_
      simp only [node?, all?_map_some, Option.map_some, canonical]
  | collated _ collation inductionHypothesis =>
      rw [render] at rendering
      obtain ⟨rendered, operandRendering, rendering⟩ := Tree.bind_eq_ok.1 rendering
      cases rendering
      exact .collated collation (inductionHypothesis operandRendering)
  | call function _ inductionHypothesis =>
      rw [render] at rendering
      obtain ⟨rendered, argumentsRendering, rendering⟩ := Tree.bind_eq_ok.1 rendering
      cases rendering
      refine .node (.function function) (Tells.all (fun _ member _ => inductionHypothesis _ member)
        argumentsRendering) ?_
      simp only [node?, all?_map_some, Option.map_some, canonical]
  | fullTextMatch index query =>
      cases rendering
      exact .node .fullTextMatch (.cons (.text index) (.cons (.text query) .nil)) rfl

theorem renderAll_eq_of_forall {expressions : List Expression} {store later : Store}
    (same : ∀ expression ∈ expressions, render later expression = render store expression) :
    renderAll later expressions = renderAll store expressions := by
  induction expressions with
  | nil => rfl
  | cons expression rest inductionHypothesis =>
      rw [renderAll, renderAll, same expression List.mem_cons_self,
        inductionHypothesis fun other member => same other (List.mem_cons_of_mem _ member)]

/-- No container is part of a tree of regular shape, so its rendering is the same in any store. -/
theorem Regular.render_eq {expression : Expression} (regular : Regular expression)
    (store later : Store) : render later expression = render store expression := by
  induction regular with
  | unary operator _ same => rw [render, render, same]
  | binary noRange _ _ sameLeft sameRight =>
      rw [render_binary (by simp [noRange]), render_binary (by simp [noRange]), sameLeft, sameRight]
  | range _ _ _ same sameLower sameUpper =>
      rw [between, render, render, same, sameLower, sameUpper]
  | compound operator _ same => rw [render, render, renderAll_eq_of_forall same]
  | aggregate _ same => rw [render, render, renderAll_eq_of_forall same]
  | collated _ collation same => rw [render, render, same]
  | call function _ same => rw [render, render, renderAll_eq_of_forall same]
  | _ => rw [render, render]

/-- What a built tree is rendered as is JSON, and another built tree is rendered as the same JSON
if and only if the two have one canonical tree. -/
theorem renders_alike_iff {first second : Expression} (firstBuilt : Built first)
    (secondBuilt : Built second) (store later : Store) {draft : Draft}
    (rendering : render store first = .ok draft) :
    IsJson draft ∧ (render later second = .ok draft ↔ second.canonical = first.canonical) := by
  have tellsFirst := tells_render firstBuilt.regular rendering
  refine ⟨tellsFirst.isJson, ?_, ?_⟩
  · intro alike
    have tellsSecond := tells_render secondBuilt.regular alike
    exact Option.some.inj (tellsSecond.recovered.symm.trans tellsFirst.recovered)
  · intro same
    calc render later second
        = render store second := secondBuilt.regular.render_eq store later
      _ = render store second.canonical := (render_canonical store second).symm
      _ = render store first.canonical := by rw [same]
      _ = render store first := render_canonical store first
      _ = .ok draft := rendering

/-- A test for null of the identifier of one source is rendered like a comparison of a property
with null. -/
theorem null_test_is_a_comparison :
    Built (.unary .null (identifierProperty.taken (some "note")))
      ∧ Built (.binary .is (ofProperty "note._id") (.literal .null))
      ∧ ∃ draft, render .empty (.unary .null (identifierProperty.taken (some "note"))) = .ok draft
        ∧ render .empty (.binary .is (ofProperty "note._id") (.literal .null)) = .ok draft := by
  have testBuilt : Built (.unary .null (identifierProperty.taken (some "note"))) :=
    .presence (.taken (@Built.documentProperty "id" _ rfl) _) .null
  have propertyBuilt : Built (ofProperty "note._id") :=
    @Built.factory "property" [.text "note._id"] _ (by simp [Value.IsScalar]) rfl
  have nullBuilt : Built (.literal .null) :=
    @Built.factory "value" [.null] _ (by simp [Value.IsScalar]) rfl
  have comparisonBuilt : Built (.binary .is (ofProperty "note._id") (.literal .null)) :=
    @Built.method _ _ "is_" [.literal .null] propertyBuilt (by simp [nullBuilt]) rfl
  refine ⟨testBuilt, comparisonBuilt, _, rfl, ?_⟩
  exact (renders_alike_iff testBuilt comparisonBuilt .empty .empty rfl).2.2 rfl

end Expression

end DocumentStore
