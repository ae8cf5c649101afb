/-!
# How type information is obtained

A package's type information comes from one of three kinds of strategy.  Which kind a session uses
is decided once, from the options of the session and from what the toolchain says it can do: forced
source mode wins, then precompiled export data if the toolchain reads it, then whatever the
toolchain does by default.
-/

namespace GoResolver

/-- The options of a completion session. -/
structure SuggestOptions where
  /-- Propose built-in identifiers. -/
  proposeBuiltins : Bool := false
  /-- Trace what importers and the engine do. -/
  debug : Bool := false
  /-- Type-check sources instead of reading export data. -/
  source : Bool := false
  deriving Repr, DecidableEq, Inhabited

/-- The text of options in the trace. -/
def SuggestOptions.trace (o : SuggestOptions) : String :=
  "SuggestOptions \x7b propose_builtins: " ++ toString o.proposeBuiltins ++ ", debug: " ++
    toString o.debug ++ ", source: " ++ toString o.source ++ " \x7d"

/-- What a toolchain can do. -/
structure Capabilities where
  /-- It reads precompiled export data. -/
  exportData : Bool := false
  deriving Repr, DecidableEq, Inhabited

/-- A way of obtaining type information. -/
inductive StrategyKind where
  | source
  | exportData
  | default
  deriving Repr, DecidableEq, Inhabited

namespace StrategyKind

/-- The kind that a session with these options uses on a toolchain with these capabilities. -/
def select (options : SuggestOptions) (capabilities : Capabilities) : StrategyKind :=
  if options.source then .source
  else if capabilities.exportData then .exportData
  else .default

/-- The word for a kind. -/
def word : StrategyKind → String
  | .source => "source"
  | .exportData => "export-data"
  | .default => "default"

end StrategyKind

end GoResolver
