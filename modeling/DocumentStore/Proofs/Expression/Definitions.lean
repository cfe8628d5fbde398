import DocumentStore.Expression.Index
import DocumentStore.Proofs.Expression.Canonical
import DocumentStore.Proofs.Heap.Plain

/-!
Contract: the definition of an index is a JSON tree.

Owns: which literals a tree may have for that, and that the rendering of such a tree, and the
definition of an index over such trees, are drafts of JSON trees.

Does not own: the trees that cannot be rendered, and what an engine makes of a definition.
-/

set_option autoImplicit false

namespace DocumentStore

/-! ### Drafts of JSON trees -/

namespace Store

variable {store : Store}

/-- A draft is placed as some JSON tree. -/
def DraftsJson (store : Store) (draft : Draft) : Prop :=
  ∃ json, store.Drafts draft json

theorem draftsJson_value {value : Value} {json : Json} (plain : store.Plain value json) :
    store.DraftsJson (.value value) :=
  ⟨json, .value plain⟩

theorem draftsJson_text (text : String) : store.DraftsJson (.text text) :=
  draftsJson_value (.text text)

theorem draftsJson_optionalText (text : Option String) : store.DraftsJson (.optionalText text) := by
  cases text with
  | none => exact draftsJson_value .null
  | some text => exact draftsJson_text text

theorem draftsJson_array {items : List Draft} (each : ∀ item ∈ items, store.DraftsJson item) :
    store.DraftsJson (.array items) := by
  suffices drafts : ∃ jsons, store.DraftsItems items jsons by
    obtain ⟨jsons, drafts⟩ := drafts
    exact ⟨.array jsons, .array drafts⟩
  induction items with
  | nil => exact ⟨[], .nil⟩
  | cons item rest inductionHypothesis =>
      rw [List.forall_mem_cons] at each
      obtain ⟨json, first⟩ := each.1
      obtain ⟨jsons, remaining⟩ := inductionHypothesis each.2
      exact ⟨json :: jsons, .cons first remaining⟩

theorem draftsJson_object {fields : List (String × Draft)} (distinct : Table.Distinct fields)
    (each : ∀ field ∈ fields, store.DraftsJson field.2) : store.DraftsJson (.object fields) := by
  suffices drafts : ∃ jsons, store.DraftsFields fields jsons by
    obtain ⟨jsons, drafts⟩ := drafts
    exact ⟨.object jsons, .object distinct drafts⟩
  clear distinct
  induction fields with
  | nil => exact ⟨[], .nil⟩
  | cons field rest inductionHypothesis =>
      rw [List.forall_mem_cons] at each
      obtain ⟨json, first⟩ := each.1
      obtain ⟨jsons, remaining⟩ := inductionHypothesis each.2
      exact ⟨(field.1, json) :: jsons, .cons first remaining⟩

theorem draftsJson_collation (collation : Collation) : store.DraftsJson collation.render := by
  have flag : ∀ value : Bool, store.DraftsJson (.value (.boolean value)) :=
    fun value => draftsJson_value (.boolean value)
  apply draftsJson_object
  · simp [Table.Distinct]
  · simp [flag, draftsJson_optionalText]

end Store

/-! ### Renderings -/

namespace Expression

mutual

/-- All literals of a tree have a property. -/
def EachLiteral (holds : Value → Prop) : Expression → Prop
  | .literal value => holds value
  | .unary _ operand => EachLiteral holds operand
  | .binary _ left right => EachLiteral holds left ∧ EachLiteral holds right
  | .compound _ operands => EachLiteralIn holds operands
  | .aggregate items => EachLiteralIn holds items
  | .collated operand _ => EachLiteral holds operand
  | .function _ arguments => EachLiteralIn holds arguments
  | _ => True

/-- All literals of several trees have a property. -/
def EachLiteralIn (holds : Value → Prop) : List Expression → Prop
  | [] => True
  | expression :: rest => EachLiteral holds expression ∧ EachLiteralIn holds rest

end

/-- A value can be a literal: it is a moment or a JSON tree. -/
def IsLiteral (store : Store) (value : Value) : Prop :=
  (∃ moment, value = .moment moment) ∨ ∃ json, store.Plain value json

variable {store : Store}

theorem draftsJson_renderLiteral {value : Value} {draft : Draft} (literal : IsLiteral store value)
    (rendered : renderLiteral value = .ok draft) : store.DraftsJson draft := by
  unfold renderLiteral at rendered
  split at rendered
  · split at rendered
    · cases rendered
      exact Store.draftsJson_text _
    · cases rendered
  · next noMoment =>
      cases rendered
      rcases literal with ⟨moment, rfl⟩ | ⟨json, plain⟩
      · exact absurd rfl (noMoment moment)
      · exact Store.draftsJson_value plain

/-- A named array of renderings. -/
theorem draftsJson_tagged (tag : String) {drafts : List Draft}
    (each : ∀ draft ∈ drafts, store.DraftsJson draft) :
    store.DraftsJson (.array (.text tag :: drafts)) := by
  apply Store.draftsJson_array
  rw [List.forall_mem_cons]
  exact ⟨Store.draftsJson_text tag, each⟩

/-- An array that holds nothing but a text. -/
theorem draftsJson_word (word : String) : store.DraftsJson (.array [.text word]) :=
  draftsJson_tagged word (by simp)

mutual

/-- What a tree over moments and JSON trees is rendered as is a JSON tree. -/
theorem draftsJson_render {expression : Expression} {draft : Draft}
    (literals : expression.EachLiteral (IsLiteral store))
    (rendered : render store expression = .ok draft) : store.DraftsJson draft := by
  cases expression with
  | literal value => exact draftsJson_renderLiteral literals rendered
  | property path source column =>
      cases rendered
      rw [renderPath_eq]
      exact draftsJson_word _
  | metadata path column source =>
      cases rendered
      rw [renderPath_eq]
      exact draftsJson_word _
  | fullTextMatch index query =>
      cases rendered
      exact draftsJson_tagged _ (by simp [Store.draftsJson_text])
  | unary operator operand =>
      rw [render] at rendered
      obtain ⟨inner, renderedInner, same⟩ := Tree.bind_eq_ok.1 rendered
      have operandLiterals : operand.EachLiteral (IsLiteral store) := literals
      have first := draftsJson_render operandLiterals renderedInner
      have second : store.DraftsJson (.value .null) := Store.draftsJson_value .null
      cases same
      cases operator with
      | _ => exact draftsJson_tagged _ (by simp [first, second, draftsJson_word])
  | binary operator left right =>
      by_cases range : operator = .between ∧ right.isBounds = true
      · obtain ⟨rfl, bounds⟩ := range
        obtain ⟨lower, upper, rfl⟩ := exists_of_isBounds bounds
        obtain ⟨operandLiterals, lowerLiterals, upperLiterals, _⟩ := literals
        rw [render] at rendered
        obtain ⟨inner, renderedInner, others⟩ := Tree.bind_eq_ok.1 rendered
        obtain ⟨lowest, renderedLower, others⟩ := Tree.bind_eq_ok.1 others
        obtain ⟨highest, renderedUpper, same⟩ := Tree.bind_eq_ok.1 others
        have operand := draftsJson_render operandLiterals renderedInner
        have first := draftsJson_render lowerLiterals renderedLower
        have last := draftsJson_render upperLiterals renderedUpper
        cases same
        exact draftsJson_tagged _ (by simp [operand, first, last])
      · rw [render_binary range] at rendered
        obtain ⟨inner, renderedLeft, others⟩ := Tree.bind_eq_ok.1 rendered
        obtain ⟨outer, renderedRight, same⟩ := Tree.bind_eq_ok.1 others
        have first := draftsJson_render literals.1 renderedLeft
        have second := draftsJson_render literals.2 renderedRight
        cases same
        exact draftsJson_tagged _ (by simp [first, second])
  | compound operator operands =>
      rw [render] at rendered
      obtain ⟨inner, renderedInner, same⟩ := Tree.bind_eq_ok.1 rendered
      cases same
      exact draftsJson_tagged _ (draftsJson_renderAll literals renderedInner)
  | aggregate items =>
      rw [render] at rendered
      obtain ⟨inner, renderedInner, same⟩ := Tree.bind_eq_ok.1 rendered
      cases same
      exact draftsJson_tagged _ (draftsJson_renderAll literals renderedInner)
  | collated operand collation =>
      rw [render] at rendered
      obtain ⟨inner, renderedInner, same⟩ := Tree.bind_eq_ok.1 rendered
      have operandLiterals : operand.EachLiteral (IsLiteral store) := literals
      have first := draftsJson_render operandLiterals renderedInner
      cases same
      exact draftsJson_tagged _ (by simp [first, Store.draftsJson_collation])
  | function name arguments =>
      rw [render] at rendered
      obtain ⟨inner, renderedInner, same⟩ := Tree.bind_eq_ok.1 rendered
      cases same
      exact draftsJson_tagged _ (draftsJson_renderAll literals renderedInner)
  | bare identity | foreign value => cases rendered
  | _ =>
      -- a parameter or a variable
      cases rendered
      exact draftsJson_word _

theorem draftsJson_renderAll {expressions : List Expression} {drafts : List Draft}
    (literals : EachLiteralIn (IsLiteral store) expressions)
    (rendered : renderAll store expressions = .ok drafts) :
    ∀ draft ∈ drafts, store.DraftsJson draft := by
  cases expressions with
  | nil =>
      cases rendered
      simp
  | cons expression rest =>
      rw [renderAll] at rendered
      obtain ⟨first, renderedFirst, others⟩ := Tree.bind_eq_ok.1 rendered
      obtain ⟨remaining, renderedRest, same⟩ := Tree.bind_eq_ok.1 others
      cases same
      rw [List.forall_mem_cons]
      exact ⟨draftsJson_render literals.1 renderedFirst,
        draftsJson_renderAll literals.2 renderedRest⟩

end

end Expression

/-! ### Definitions -/

/-- The definition of an index over trees of moments and JSON trees is a JSON tree. -/
theorem Index.draftsJson_definition {store : Store} {index : Index} {definition : Draft}
    (literals : Expression.EachLiteralIn (Expression.IsLiteral store) index.expressions)
    (defined : index.definition store = .ok definition) : store.DraftsJson definition := by
  obtain ⟨rendered, renderedItems, same⟩ := Tree.bind_eq_ok.1 defined
  have items : store.DraftsJson (.array rendered) :=
    Store.draftsJson_array (Expression.draftsJson_renderAll literals renderedItems)
  cases index with
  | value expressions =>
      cases same
      apply Store.draftsJson_object
      · simp [Table.Distinct]
      · simp [items, Store.draftsJson_text]
  | fullText expressions language ignoresAccents =>
      have accents : store.DraftsJson (.value (.boolean ignoresAccents)) :=
        Store.draftsJson_value (.boolean ignoresAccents)
      cases same
      apply Store.draftsJson_object
      · simp [Table.Distinct]
      · simp [items, accents, Store.draftsJson_text, Store.draftsJson_optionalText]

end DocumentStore
