/-!
# Faults

A completion request can end without an answer: the engine reports an error, or something under it
panics.  A panic carries whatever value it was raised with, and only a text among those is shown.
-/

namespace GoResolver

/-- The value that a panic was raised with. -/
inductive Panic where
  | message (text : String)
  /-- A value that is no text. -/
  | other
  deriving Repr, DecidableEq

/-- Why a completion request ended without an answer. -/
inductive Fault where
  /-- The engine reported an error. -/
  | engine (message : String)
  /-- The engine or a strategy under it panicked. -/
  | panicked (message : String)
  deriving Repr, DecidableEq

namespace Fault

/-- The fault that a panic is. -/
def ofPanic : Panic → Fault
  | .message text => .panicked text
  | .other => .panicked "non-string panic payload"

/-- The text that reports a fault. -/
def message : Fault → String
  | .engine message => "completion engine failed: " ++ message
  | .panicked message => "completion engine panicked: " ++ message

/-- Whether a trace of the stack was taken. -/
def hasTrace : Fault → Bool
  | .engine _ => false
  | .panicked _ => true

end Fault

end GoResolver
