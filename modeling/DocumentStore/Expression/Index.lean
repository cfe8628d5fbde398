import DocumentStore.Expression.Render

/-!
Contract: descriptors of indexes.

Owns: value indexes and full-text indexes, and the definition an engine receives.

Does not own: the registry of indexes, which is the engine's.
-/

set_option autoImplicit false

namespace DocumentStore

/-- The descriptor of an index. -/
inductive Index where
  | value (items : List Expression)
  | fullText (items : List Expression) (language : Option String) (ignoresAccents : Bool)

namespace Index

/-- A full-text index breaks words as in English unless it is told otherwise. -/
def defaultLanguage : String :=
  "en"

/-- A full-text index over some expressions. -/
def ofTexts (items : List Expression) : Index :=
  .fullText items (some defaultLanguage) false

/-- The name of the type of an index. -/
def typeName : Index → String
  | .value _ => "VALUE"
  | .fullText _ _ _ => "FULL_TEXT"

/-- The type of an index as messages name it. -/
def typeWord : Index → String
  | .value _ => "value"
  | .fullText _ _ _ => "full_text"

/-- The language of an index; a value index has none. -/
def language : Index → Option String
  | .value _ => none
  | .fullText _ language _ => language

/-- Whether an index ignores accents. -/
def ignoresAccents : Index → Bool
  | .value _ => false
  | .fullText _ _ ignoresAccents => ignoresAccents

/-- The expressions of an index. -/
def expressions : Index → List Expression
  | .value items => items
  | .fullText items _ _ => items

/-- A full-text index for another language. -/
def withLanguage (index : Index) (language : Option String) : Index :=
  match index with
  | .value items => .value items
  | .fullText items _ ignoresAccents => .fullText items language ignoresAccents

/-- A full-text index that heeds accents or does not. -/
def withAccents (index : Index) (ignoresAccents : Bool) : Index :=
  match index with
  | .value items => .value items
  | .fullText items language _ => .fullText items language ignoresAccents

/-- The rendered expressions of an index. -/
def items (store : Store) (index : Index) : Except Failure (List Draft) :=
  Expression.renderAll store index.expressions

/-- The definition an engine receives. -/
def definition (store : Store) (index : Index) : Except Failure Draft := do
  let rendered ← index.items store
  return match index with
    | .value _ => .object [("type", .text "value"), ("items", .array rendered)]
    | .fullText _ language ignoresAccents =>
        .object [("type", .text "full-text"), ("language", .optionalText language),
          ("ignoreAccents", .value (.boolean ignoresAccents)), ("items", .array rendered)]

end Index

end DocumentStore
