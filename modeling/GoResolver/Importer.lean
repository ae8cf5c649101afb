import GoResolver.Cache
import GoResolver.Text.Quoted
import GoResolver.Toolchain

/-!
# Importing with a cache

Root packages are the same for every request, so a complete one is resolved once: the shared
strategy imports it and the cache keeps it.  Everything else depends on the request's build context
and is imported by the request's own strategy, every time.

`Importer.resolve` is an import without a cache: the build context places the package, its answer
chooses the strategy, and the outcome says whether the package may be kept.  `Importer.importFrom`
puts the cache around it.  The pseudo-package for low-level operations is answered without either
strategy, and kept by nobody.
-/

namespace GoResolver

/-- What a request imports with. -/
structure Importer (S : Type) where
  /-- The strategy for root packages, shared by all requests. -/
  root : S
  /-- The request's own strategy. -/
  own : S
  build : BuildContext
  /-- Whether failures are logged. -/
  debug : Bool

/-- An import without a cache. -/
structure Resolved (σ S : Type) where
  outcome : Outcome
  /-- The package to keep, if it may be kept. -/
  keep : Option Package := none
  events : List (Event S) := []
  host : σ

/-- An import with a cache. -/
structure Imported (σ S : Type) where
  outcome : Outcome
  cache : Cache
  events : List (Event S) := []
  host : σ

namespace Importer

variable {σ S : Type}

/-- The trace of a failed step, which is logged only when tracing. -/
def trace (imp : Importer S) (step : String) (q : ImportQuery) (e : ResolutionError) :
    List (Event S) :=
  if imp.debug then
    [.logged (.debug ("gocode: " ++ step ++ "(" ++ Text.quoted q.path ++ ", " ++
      Text.quoted q.sourceDir.text ++ "): " ++ e.message))]
  else []

/-- The strategy that imports a package with a given location. -/
def strategyFor (imp : Importer S) (location : Location) : S :=
  if location.isRoot then imp.root else imp.own

/-- Imports a package that has been located. -/
def load (tc : Toolchain σ S) (imp : Importer S) (q : ImportQuery) (location : Location)
    (host : σ) : Resolved σ S :=
  let strategy := imp.strategyFor location
  match tc.call strategy q host with
  | (.package p, host) =>
    { outcome := .package p
      keep := if location.isRoot && p.complete then some p else none
      events := [.called strategy q (.package p)]
      host }
  | (.error e, host) =>
    { outcome := .error e
      events := .called strategy q (.error e) ::
        imp.trace ((tc.kind strategy).word ++ ".import_from") q e
      host }
  | (.panic p, host) =>
    { outcome := .panic p, events := [.called strategy q (.panic p)], host }

/-- Imports a package without a cache. -/
def resolve (tc : Toolchain σ S) (imp : Importer S) (q : ImportQuery) (host : σ) :
    Resolved σ S :=
  if q.path = lowLevelPath then { outcome := .package lowLevelPackage, host }
  else
    let lookup := imp.build q.path q.sourceDir
    let seen := .located q.path q.sourceDir :: lookup.log.map .logged
    match lookup.result with
    | .error e => { outcome := .error e, events := seen ++ imp.trace "locate" q e, host }
    | .ok location =>
      if location.isRoot ∧ location.importPath = lowLevelPath then
        { outcome := .package lowLevelPackage, events := seen, host }
      else
        let r := load tc imp q location host
        { r with events := seen ++ r.events }

/-- Imports a package, from the cache when it is there. -/
def importFrom (tc : Toolchain σ S) (imp : Importer S) (q : ImportQuery) (cache : Cache)
    (host : σ) : Imported σ S :=
  if q.path = "" then
    { outcome := .error (.invalidImportPath q.path "empty import path"), cache, host }
  else
    let key := CacheKey.of q.path q.sourceDir
    match cache.get? key with
    | some p => { outcome := .package p, cache, host }
    | none =>
      let r := resolve tc imp q host
      match r.keep with
      | none => { outcome := r.outcome, cache, events := r.events, host := r.host }
      | some p =>
        { outcome := .package (cache.stored key p)
          cache := cache.insert key p
          events := r.events
          host := r.host }

end Importer

end GoResolver
