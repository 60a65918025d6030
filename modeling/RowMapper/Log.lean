/-!
# Log records

What the library tells about its work while it runs: a level and a text.
-/

namespace RowMapper

/-- How grave a record is. -/
inductive LogLevel where
  | debug
  | warn
  | error
  deriving Repr, DecidableEq

/-- The name of the level. -/
def LogLevel.name : LogLevel → String
  | .debug => "DEBUG"
  | .warn => "WARN"
  | .error => "ERROR"

/-- One record. -/
structure LogRecord where
  level : LogLevel
  text : String
  deriving Repr, DecidableEq

/-- The record on one line. -/
def LogRecord.line (r : LogRecord) : String := r.level.name ++ " " ++ r.text

/-- A record for those who look for a fault. -/
def LogRecord.debug (text : String) : LogRecord := ⟨.debug, text⟩

/-- A record about something legal but suspicious. -/
def LogRecord.warn (text : String) : LogRecord := ⟨.warn, text⟩

/-- A record about a failure. -/
def LogRecord.error (text : String) : LogRecord := ⟨.error, text⟩

/-- Records in the order in which they were written. -/
abbrev Log := List LogRecord

end RowMapper
