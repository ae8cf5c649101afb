import GoResolver.BuildContext
import GoResolver.Fault

/-!
# The toolchain behind a session

A session works with a toolchain that it does not know: it asks what the toolchain can do, has
strategies made, and has them import packages.  `Toolchain σ S` is any such toolchain, with
strategies of type `S` and a state of type `σ` that every use may change.  Making a strategy and
importing with one are therefore functions of the state as well.

`Event` is what can be observed of a session from outside, in order of happening.
-/

namespace GoResolver

/-- The lifetime that a strategy is made for: shared by all requests, or bound to one request and
its build context. -/
inductive Scope where
  | shared
  | request (build : BuildContext)

/-- An import: a path, the directory that imports it, and the mode. -/
structure ImportQuery where
  path : String
  sourceDir : Path
  mode : ImportMode := {}
  deriving Repr, DecidableEq

/-- The query for an import without a directory: it is taken from the current one. -/
def ImportQuery.ofPath (path : String) : ImportQuery := ⟨path, ⟨"."⟩, {}⟩

/-- How an import ends. -/
inductive Outcome where
  | package (p : Package)
  | error (e : ResolutionError)
  | panic (p : Panic)
  deriving Repr, DecidableEq

/-- A toolchain with strategies of type `S` and a state of type `σ`. -/
structure Toolchain (σ S : Type) where
  /-- What the toolchain can do. -/
  capabilities : σ → Capabilities
  /-- Makes one new strategy. -/
  create : StrategyKind → Scope → σ → S × σ
  /-- The kind of a strategy. -/
  kind : S → StrategyKind
  /-- Imports a package with a strategy. -/
  call : S → ImportQuery → σ → Outcome × σ

/-- What a completion engine is asked, and how it should answer. -/
structure EngineRequest where
  file : Path
  source : ByteArray
  offset : Nat
  ignoreCase : Bool
  builtins : Bool
  /-- Whether lines that the engine logs are kept. -/
  logging : Bool

/-- What happens in a session, as seen from outside. -/
inductive Event (S : Type) where
  | capabilities (answer : Capabilities)
  | created (kind : StrategyKind) (scope : Scope) (strategy : S)
  | asked (request : EngineRequest)
  | located (importPath : String) (sourceDir : Path)
  | called (strategy : S) (query : ImportQuery) (outcome : Outcome)
  | logged (record : LogRecord)

end GoResolver
