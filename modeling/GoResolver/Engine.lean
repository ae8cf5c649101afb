import GoResolver.Candidate
import GoResolver.Importer

/-!
# Completion engines

A completion engine computes candidates and calls back while it does: it imports packages, and it
logs lines.  `Script` is everything an engine can do with those callbacks, as a tree: each import
goes on with the answer it got, and a script ends in candidates, in an error, or in a panic.  An
`Engine` is a script for every request.

`Script.run` plays a script against an importer.  A strategy that panics ends the run as well, and
the cache is then as the imports before left it.
-/

namespace GoResolver

/-- What an engine does during one request. -/
inductive Script where
  | finish (candidates : List Candidate)
  | fail (message : String)
  | panic (p : Panic)
  | importing (query : ImportQuery) (next : Except ResolutionError Package → Script)
  | log (line : String) (next : Script)

/-- A completion engine. -/
abbrev Engine := EngineRequest → Script

/-- How a script ended. -/
inductive Ending where
  | finished (candidates : List Candidate)
  | faulted (fault : Fault)
  deriving Repr, DecidableEq

/-- A script that was run. -/
structure Ran (σ S : Type) where
  ending : Ending
  cache : Cache
  events : List (Event S) := []
  host : σ

namespace Script

variable {σ S : Type}

/-- Runs a script with an importer. -/
def run (tc : Toolchain σ S) (imp : Importer S) : Script → Cache → σ → Ran σ S
  | .finish candidates, cache, host => { ending := .finished candidates, cache, host }
  | .fail message, cache, host => { ending := .faulted (.engine message), cache, host }
  | .panic p, cache, host => { ending := .faulted (.ofPanic p), cache, host }
  | .log line next, cache, host =>
    let r := run tc imp next cache host
    if imp.debug then { r with events := .logged (.debug ("gocode: " ++ line)) :: r.events } else r
  | .importing query next, cache, host =>
    let i := imp.importFrom tc query cache host
    match i.outcome with
    | .panic p =>
      { ending := .faulted (.ofPanic p), cache := i.cache, events := i.events, host := i.host }
    | .error e =>
      let r := run tc imp (next (.error e)) i.cache i.host
      { r with events := i.events ++ r.events }
    | .package p =>
      let r := run tc imp (next (.ok p)) i.cache i.host
      { r with events := i.events ++ r.events }

end Script

end GoResolver
