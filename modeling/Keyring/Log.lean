/-!
# Log records

A record names its logger and level and has a message. As a line it shows the level first.
-/

namespace Keyring.Log

inductive Level where
  | debug
  | info
  | warning
  | error
  deriving DecidableEq, Repr

def Level.name : Level → String
  | debug => "DEBUG"
  | info => "INFO"
  | warning => "WARNING"
  | error => "ERROR"

structure Record where
  logger : String
  level : Level
  message : String
  deriving DecidableEq, Repr

/-- The record as a line. -/
def Record.line (r : Record) : String :=
  r.level.name ++ " " ++ r.logger ++ " - " ++ r.message ++ "\n"

end Keyring.Log
