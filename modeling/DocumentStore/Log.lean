/-!
Contract: what operations report as they run.

Owns: the levels and the records.

Does not own: who reads them.
-/

set_option autoImplicit false

namespace DocumentStore

/-- How much a record matters. -/
inductive LogLevel where
  | debug
  | info
  deriving DecidableEq

/-- The written name of a level. -/
def LogLevel.name : LogLevel → String
  | debug => "DEBUG"
  | info => "INFO"

/-- One report. -/
structure LogRecord where
  level : LogLevel
  logger : String
  message : String
  deriving DecidableEq

end DocumentStore
