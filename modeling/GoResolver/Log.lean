import GoResolver.Text.Number

/-!
# Log records

A record is a level and a message.  A log is read on a terminal, so the characters that steer one
are shown as escapes in a log line.
-/

namespace GoResolver

/-- How much a log record matters. -/
inductive LogLevel where
  | debug
  | warn
  deriving Repr, DecidableEq

/-- The word for a level. -/
def LogLevel.word : LogLevel → String
  | .debug => "DEBUG"
  | .warn => "WARN"

/-- A line of diagnostics. -/
structure LogRecord where
  level : LogLevel
  message : String
  deriving Repr, DecidableEq

/-- The level in a column of its own. -/
def LogLevel.column : LogLevel → String
  | .debug => "DEBUG"
  | .warn => " WARN"

/-- A record that only matters when tracing. -/
def LogRecord.debug (message : String) : LogRecord := ⟨.debug, message⟩

/-- A record of something that went wrong. -/
def LogRecord.warn (message : String) : LogRecord := ⟨.warn, message⟩

/-- A character of a log line. -/
def LogRecord.shown (c : Char) : List Char :=
  if ['\x1b', '\x07', '\x08', '\x0c', '\x7f'].contains c then
    ['\\', 'x'] ++ Text.paddedDigits 16 2 c.toNat
  else if 0x80 ≤ c.toNat ∧ c.toNat ≤ 0x9f then
    ['\\', 'u', '{'] ++ Text.digits 16 c.toNat ++ ['}']
  else [c]

/-- A record as a line of a log. -/
def LogRecord.line (r : LogRecord) : String :=
  r.level.column ++ " " ++ String.ofList (r.message.toList.flatMap shown) ++ "\n"

end GoResolver
