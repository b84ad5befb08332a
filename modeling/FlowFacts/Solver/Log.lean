import FlowFacts.Error

/-! Log records, and answers that come with the records made on the way. -/
namespace FlowFacts

inductive Level where
  | trace
  | debug
  | info
  | warn
  | error
deriving DecidableEq

def Level.name : Level → String
  | .trace => "TRACE"
  | .debug => "DEBUG"
  | .info => "INFO"
  | .warn => "WARN"
  | .error => "ERROR"

structure Record where
  level : Level
  message : String
deriving DecidableEq

/-- The record on one line. -/
def Record.line (r : Record) : String := r.level.name ++ " " ++ r.message

/-- An answer, or why there is none, and the records in the order they were made. -/
structure Logged (α : Type) where
  outcome : Except Stop α
  log : List Record

end FlowFacts
