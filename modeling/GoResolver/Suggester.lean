import GoResolver.Engine

/-!
# Completion sessions

A `Suggester` is what lives as long as a session: its options, the kind of strategy it uses, the
shared strategy for root packages, and the cache.  Starting, reconfiguring and resetting a session
all make the kind and the shared strategy anew and start from a given cache, which is empty in the
last two cases.

A completion request runs the engine once, with an importer around the session's cache and a
strategy of its own.  Whatever fails or panics under it is contained: the request then has no
candidates and leaves one warning, and the session goes on with the cache that the completed imports
have filled.
-/

namespace GoResolver

/-- The state of a completion session. -/
structure Suggester (S : Type) where
  options : SuggestOptions
  kind : StrategyKind
  /-- The strategy for root packages. -/
  root : S
  cache : Cache

/-- A change of a session: what it answers, the session afterwards, and what happened. -/
structure Step (σ S α : Type) where
  answer : α
  state : Suggester S
  events : List (Event S) := []
  host : σ

namespace Suggester

variable {σ S : Type}

/-- Starts a session with the given options and cache. -/
def start (tc : Toolchain σ S) (options : SuggestOptions) (cache : Cache) (host : σ) : Step σ S Unit :=
  let capabilities := tc.capabilities host
  let kind := StrategyKind.select options capabilities
  let (root, host) := tc.create kind .shared host
  { answer := ()
    state := { options, kind, root, cache }
    events := [.capabilities capabilities, .created kind .shared root]
    host }

/-- Gives a session new options: everything it had resolved is dropped. -/
def reconfigure (tc : Toolchain σ S) (options : SuggestOptions) (host : σ) : Step σ S Unit :=
  let s := start tc options .empty host
  { s with
    events := s.events ++
      [.logged (.debug ("suggester reconfigured: " ++ options.trace ++ ", strategy " ++
        s.state.kind.word))] }

/-- Starts a session again with the options it has. -/
def reset (tc : Toolchain σ S) (s : Suggester S) (host : σ) : Step σ S Unit :=
  reconfigure tc s.options host

/-- What is logged when a request ends. -/
def closing (s : Suggester S) (request : EngineRequest) : Ending → List LogRecord
  | .faulted fault =>
    [.warn ("gocode/suggest fault in " ++ request.file.text ++ ": " ++ fault.message ++ "\n")]
  | .finished candidates =>
    if s.options.debug then
      [.debug ("gocode: " ++ toString candidates.length ++ " candidates for " ++
        request.file.text ++ ":" ++ toString request.offset)]
    else []

/-- The candidates of a request that has ended. -/
def answerOf : Ending → List Candidate
  | .finished candidates => candidates
  | .faulted _ => []

/-- Answers a completion request.  An empty source has no candidates and asks nobody. -/
def suggest (tc : Toolchain σ S) (engine : Engine) (s : Suggester S) (build : BuildContext)
    (file : Path) (source : ByteArray) (offset : Nat) (host : σ) :
    Step σ S (List Candidate) :=
  if source.size = 0 then { answer := [], state := s, host }
  else
    let (own, host) := tc.create s.kind (.request build) host
    let request : EngineRequest :=
      { file, source, offset
        ignoreCase := true
        builtins := s.options.proposeBuiltins
        logging := s.options.debug }
    let importer : Importer S := { root := s.root, own, build, debug := s.options.debug }
    let r := (engine request).run tc importer s.cache host
    { answer := answerOf r.ending
      state := { s with cache := r.cache }
      events := .created s.kind (.request build) own :: .asked request ::
        (r.events ++ (s.closing request r.ending).map .logged)
      host := r.host }

end Suggester

end GoResolver
