import GoResolver.Proofs.Importer.Run

/-!
# Whom an import asks, and what it leaves behind

An import can go seven ways, in a fixed order of tests: its path is empty; its key is cached; its
path is that of the low-level pseudo-package; it cannot be located; it is located as that
pseudo-package; it is imported by the shared strategy, or by the request's own.  `Import.Effects`
says of each whom the import asks, what it answers, and what becomes of the cache and of the
toolchain's state.

## Why a reachable cache is needed

The cache is asked before the low-level path is recognized, so that path is answered from the cache
if it is there.  That it never is there is no matter of one import: every entry of a reachable cache
was left by an earlier import of the run (`get?_cacheAfter_empty_eq_some_iff`), and none of these
had an empty path or the low-level one.  The other clauses hold with any cache.
-/

namespace GoResolver

variable {σ S : Type}

/-! ## 1. Actions -/

/-- Whether an event is more than a line in the log. -/
def Event.isAction : Event S → Bool
  | .logged _ => false
  | _ => true

/-- What an import did besides logging, in order. -/
def Imported.actions (r : Imported σ S) : List (Event S) := r.events.filter Event.isAction

namespace Importer

variable (tc : Toolchain σ S) (imp : Importer S) (q : ImportQuery)

theorem filter_isAction_trace (step : String) (e : ResolutionError) :
    (imp.trace step q e).filter Event.isAction = [] := by
  rw [trace]
  split <;> rfl

/-- Asking for a location is one action. -/
theorem filter_isAction_lookupEvents :
    (imp.lookupEvents q).filter Event.isAction = [.located q.path q.sourceDir] := by
  rw [lookupEvents, List.filter_cons_of_pos rfl, List.filter_map]
  congr 1
  simp [Function.comp_def, Event.isAction]

/-- Calling a strategy is one action. -/
theorem filter_isAction_callEvents (strategy : S) (o : Outcome) :
    (imp.callEvents tc q strategy o).filter Event.isAction = [.called strategy q o] := by
  cases o with
  | error e =>
    exact congrArg (Event.called strategy q (.error e) :: ·) (imp.filter_isAction_trace q _ e)
  | package p => rfl
  | panic p => rfl

end Importer

/-! ## 2. Imports that have to ask -/

namespace Import

/-- What the build context of the request says about the import. -/
def lookup (i : Import σ S) : Except ResolutionError Location :=
  (i.importer.build i.query.path i.query.sourceDir).result

/-- Asking the build context for the place of the import, as it was given. -/
def question (i : Import σ S) : Event S := .located i.query.path i.query.sourceDir

/-- The import has to ask: its path is neither empty nor that of the low-level pseudo-package, and
nothing is cached under it and its directory. -/
structure Misses (cache : Cache) (i : Import σ S) : Prop where
  path_ne_empty : i.query.path ≠ ""
  path_ne_lowLevel : i.query.path ≠ lowLevelPath
  get?_eq_none : cache.get? ⟨i.query.path, i.query.sourceDir.components⟩ = none

/-- The import asks the build context, and then answers without having anything imported. -/
structure OnlyLocates (tc : Toolchain σ S) (cache : Cache) (i : Import σ S) (o : Outcome) :
    Prop where
  actions_eq : (i.made tc cache).actions = [i.question]
  outcome_eq : (i.made tc cache).outcome = o
  cache_eq : (i.made tc cache).cache = cache
  host_eq : (i.made tc cache).host = i.host

/-- The import asks the build context and then has a strategy import the package, whose answer is
its own. -/
structure Delegates (tc : Toolchain σ S) (cache : Cache) (i : Import σ S) (strategy : S) :
    Prop where
  actions_eq : (i.made tc cache).actions =
    [i.question, .called strategy i.query (i.made tc cache).outcome]
  call_eq : tc.call strategy i.query i.host =
    ((i.made tc cache).outcome, (i.made tc cache).host)

variable {tc : Toolchain σ S} {cache : Cache} {i : Import σ S}

/-- An import that has to ask is made as without a cache. -/
theorem made_of_misses (h : i.Misses cache) :
    i.made tc cache =
      { outcome := (i.importer.resolve tc i.query i.host).outcome
        cache := match (i.importer.resolve tc i.query i.host).keep with
          | none => cache
          | some p => cache.insert i.key p
        events := (i.importer.resolve tc i.query i.host).events
        host := (i.importer.resolve tc i.query i.host).host } :=
  Importer.importFrom_of_miss tc i.importer i.query i.host cache h.path_ne_empty h.get?_eq_none

theorem onlyLocates_of_error (h : i.Misses cache) {e : ResolutionError}
    (he : i.lookup = .error e) : i.OnlyLocates tc cache (.error e) := by
  have hresolve := Importer.resolve_of_error tc i.importer i.query i.host h.path_ne_lowLevel he
  refine ⟨?_, ?_, ?_, ?_⟩ <;> rw [made_of_misses h, hresolve]
  rw [Imported.actions, List.filter_append, Importer.filter_isAction_lookupEvents,
    Importer.filter_isAction_trace, List.append_nil, question]

theorem onlyLocates_of_root_lowLevel (h : i.Misses cache) {l : Location} (hl : i.lookup = .ok l)
    (hroot : l.isRoot = true ∧ l.importPath = lowLevelPath) :
    i.OnlyLocates tc cache (.package lowLevelPackage) := by
  have hresolve :=
    Importer.resolve_of_root_lowLevel tc i.importer i.query i.host h.path_ne_lowLevel hl hroot
  refine ⟨?_, ?_, ?_, ?_⟩ <;> rw [made_of_misses h, hresolve]
  rw [Imported.actions, Importer.filter_isAction_lookupEvents, question]

theorem delegates_of_located (tc : Toolchain σ S) (h : i.Misses cache) {l : Location}
    (hl : i.lookup = .ok l) (hroot : ¬ (l.isRoot = true ∧ l.importPath = lowLevelPath)) :
    i.Delegates tc cache (i.importer.strategyFor l) := by
  have hresolve :=
    Importer.resolve_of_located tc i.importer i.query i.host h.path_ne_lowLevel hl hroot
  constructor
  · rw [made_of_misses h, hresolve, Imported.actions, List.filter_append,
      Importer.filter_isAction_lookupEvents, Importer.filter_isAction_callEvents, question]
    rfl
  · rw [made_of_misses h, hresolve]

/-- A root package is imported by the shared strategy. -/
theorem delegates_of_root (tc : Toolchain σ S) (h : i.Misses cache) {l : Location}
    (hl : i.lookup = .ok l) (hroot : l.isRoot = true) (hpath : l.importPath ≠ lowLevelPath) :
    i.Delegates tc cache i.importer.root := by
  have hdelegates := delegates_of_located tc h hl fun hlow => hpath hlow.2
  rwa [Importer.strategyFor, if_pos hroot] at hdelegates

/-- Any other package is imported by the request's own strategy. -/
theorem delegates_of_not_root (tc : Toolchain σ S) (h : i.Misses cache) {l : Location}
    (hl : i.lookup = .ok l) (hroot : l.isRoot = false) : i.Delegates tc cache i.importer.own := by
  have hne : ¬ (l.isRoot = true ∧ l.importPath = lowLevelPath) := by simp [hroot]
  have hdelegates := delegates_of_located tc h hl hne
  rwa [Importer.strategyFor, hroot, if_neg Bool.false_ne_true] at hdelegates

/-! ## 3. Imports that do not ask -/

theorem made_of_empty (tc : Toolchain σ S) (cache : Cache) (h : i.query.path = "") :
    i.made tc cache =
      { outcome := .error (.invalidImportPath "" "empty import path"), cache, host := i.host } := by
  rw [made, Importer.importFrom_of_empty tc _ _ _ _ h, h]

theorem made_of_cached (tc : Toolchain σ S) (h : i.query.path ≠ "") {p : Package}
    (hget : cache.get? i.key = some p) :
    i.made tc cache = { outcome := .package p, cache, host := i.host } :=
  Importer.importFrom_of_hit tc i.importer i.query i.host cache h hget

/-- A low-level path that is not cached is answered by the pseudo-package, without asking. -/
theorem made_of_lowLevel (tc : Toolchain σ S) (h : cache.get? i.key = none)
    (hlow : i.query.path = lowLevelPath) :
    i.made tc cache = { outcome := .package lowLevelPackage, cache, host := i.host } := by
  have hempty : i.query.path ≠ "" := by
    rw [hlow]
    decide
  rw [made, Importer.importFrom_of_miss tc _ _ _ _ hempty h,
    Importer.resolve_of_lowLevel tc i.importer i.query i.host hlow]

/-! ## 4. Whom an import asks -/

/-- **At most the build context is asked, and then at most one strategy**, both for what the import
was given. -/
theorem actions_made_cases (tc : Toolchain σ S) (cache : Cache) (i : Import σ S) :
    (i.made tc cache).actions = [] ∨ (i.made tc cache).actions = [i.question] ∨
    ∃ strategy, (i.made tc cache).actions =
      [i.question, .called strategy i.query (i.made tc cache).outcome] := by
  by_cases hempty : i.query.path = ""
  · rw [made_of_empty tc cache hempty]
    exact .inl rfl
  cases hget : cache.get? i.key with
  | some p =>
    rw [made_of_cached tc hempty hget]
    exact .inl rfl
  | none =>
    by_cases hlow : i.query.path = lowLevelPath
    · rw [made_of_lowLevel tc hget hlow]
      exact .inl rfl
    have hmisses : i.Misses cache := ⟨hempty, hlow, hget⟩
    cases hl : i.lookup with
    | error e => exact .inr (.inl (onlyLocates_of_error hmisses hl).actions_eq)
    | ok l =>
      by_cases hroot : l.isRoot = true ∧ l.importPath = lowLevelPath
      · exact .inr (.inl (onlyLocates_of_root_lowLevel hmisses hl hroot).actions_eq)
      · exact .inr (.inr ⟨_, (delegates_of_located tc hmisses hl hroot).actions_eq⟩)

end Import

/-! ## 5. What becomes of the cache -/

theorem Cache.entries_insert_of_get?_eq_none {c : Cache} {key : CacheKey} (h : c.get? key = none)
    (p : Package) : (c.insert key p).entries = c.entries ++ [(key, p)] := by
  unfold Cache.insert
  split
  · next hsome =>
    rw [h] at hsome
    cases hsome
  · rfl

namespace Import

variable {tc : Toolchain σ S} {cache : Cache} {i : Import σ S}

/-- An import that fills a cache without an entry under its key adds this one entry. -/
theorem entries_made_of_fills (h : cache.get? i.key = none) {p : Package} (hfills : i.Fills tc p) :
    (i.made tc cache).cache.entries = cache.entries ++ [(i.key, p)] := by
  have hkeep : (i.importer.resolve tc i.query i.host).keep = some p :=
    (Importer.resolve_keep_eq_some_iff tc _ _ _).mpr
      ⟨hfills.path_ne_lowLevel, hfills.locatesRoot, hfills.call_eq, hfills.complete⟩
  rw [made_of_misses ⟨hfills.path_ne_empty, hfills.path_ne_lowLevel, h⟩, hkeep]
  exact Cache.entries_insert_of_get?_eq_none h p

/-- An import leaves the cache alone, or it fills it. -/
theorem cache_made_cases (tc : Toolchain σ S) (cache : Cache) (i : Import σ S) :
    (i.made tc cache).cache = cache ∨ cache.get? i.key = none ∧ ∃ p, i.Fills tc p := by
  by_cases hempty : i.query.path = ""
  · rw [made_of_empty tc cache hempty]
    exact .inl rfl
  cases hget : cache.get? i.key with
  | some p =>
    rw [made_of_cached tc hempty hget]
    exact .inl rfl
  | none =>
    rw [made, Importer.importFrom_of_miss tc _ _ _ _ hempty hget]
    cases hkeep : (i.importer.resolve tc i.query i.host).keep with
    | none => exact .inl rfl
    | some p =>
      obtain ⟨hlow, hroot, hcall, hp⟩ := (Importer.resolve_keep_eq_some_iff tc _ _ _).mp hkeep
      exact .inr ⟨rfl, p, hempty, hlow, hroot, hcall, hp⟩

/-- An import that fills the cache has the shared strategy import the package. -/
theorem delegates_of_fills (h : cache.get? i.key = none) {p : Package} (hfills : i.Fills tc p) :
    i.Delegates tc cache i.importer.root ∧ (i.made tc cache).outcome = .package p := by
  obtain ⟨l, hl, hroot, hpath⟩ := hfills.locatesRoot
  have hdelegates := delegates_of_root tc
    ⟨hfills.path_ne_empty, hfills.path_ne_lowLevel, h⟩ hl hroot hpath
  have hcall := congrArg Prod.fst hdelegates.call_eq
  exact ⟨hdelegates, hcall.symm.trans hfills.call_eq⟩

/-! ## 6. The effects of an import -/

/-- **No run of imports leaves an entry for the empty path or the low-level one.** -/
theorem get?_reached_eq_none (earlier : List (Import σ S))
    (h : i.query.path = "" ∨ i.query.path = lowLevelPath) :
    (cacheAfter tc .empty earlier).get? i.key = none := by
  refine get?_cacheAfter_empty_eq_none_iff.mpr fun j _ hkey p hfills => ?_
  have hpath : j.query.path = i.query.path := (CacheKey.of_eq_of_iff.mp hkey).1
  rcases h with hempty | hlow
  · exact hfills.path_ne_empty (hpath.trans hempty)
  · exact hfills.path_ne_lowLevel (hpath.trans hlow)

/-- Whom an import asks with a given cache, what it answers, and what it leaves behind.  Entries are
found under the path and the components of the directory. -/
structure Effects (tc : Toolchain σ S) (cache : Cache) (i : Import σ S) : Prop where
  /-- An empty path is refused, and nothing else happens. -/
  of_empty : i.query.path = "" → i.made tc cache =
    { outcome := .error (.invalidImportPath "" "empty import path"), cache, host := i.host }
  /-- What is cached is answered, and nothing else happens. -/
  of_cached : ∀ p, cache.get? ⟨i.query.path, i.query.sourceDir.components⟩ = some p →
    i.made tc cache = { outcome := .package p, cache, host := i.host }
  /-- The low-level path is answered by the pseudo-package, and nothing else happens. -/
  of_lowLevel : i.query.path = lowLevelPath → i.made tc cache =
    { outcome := .package lowLevelPackage, cache, host := i.host }
  /-- What cannot be located is not imported. -/
  of_not_located : i.Misses cache → ∀ e, i.lookup = .error e →
    i.OnlyLocates tc cache (.error e)
  /-- A root package with the low-level path is the pseudo-package. -/
  of_root_lowLevel : i.Misses cache → ∀ l, i.lookup = .ok l →
    l.isRoot = true ∧ l.importPath = lowLevelPath →
    i.OnlyLocates tc cache (.package lowLevelPackage)
  /-- Any other root package is imported by the shared strategy. -/
  of_root : i.Misses cache → ∀ l, i.lookup = .ok l →
    l.isRoot = true → l.importPath ≠ lowLevelPath → i.Delegates tc cache i.importer.root
  /-- A package that is no root package is imported by the request's own strategy. -/
  of_not_root : i.Misses cache → ∀ l, i.lookup = .ok l →
    l.isRoot = false → i.Delegates tc cache i.importer.own
  /-- At most the build context is asked, and then at most one strategy, both as it was given. -/
  actions_cases : (i.made tc cache).actions = [] ∨ (i.made tc cache).actions = [i.question] ∨
    ∃ strategy, (i.made tc cache).actions =
      [i.question, .called strategy i.query (i.made tc cache).outcome]
  /-- The cache changes only by a complete package that the shared strategy answers for a root
  package, and by no other entry than this. -/
  cache_cases : (i.made tc cache).cache = cache ∨
    ∃ p, i.Fills tc p ∧
      (i.made tc cache).actions = [i.question, .called i.importer.root i.query (.package p)] ∧
      (i.made tc cache).cache.entries =
        cache.entries ++ [(⟨i.query.path, i.query.sourceDir.components⟩, p)]
  /-- Such a package is added whenever there is nothing under its path and directory. -/
  entries_of_fills : cache.get? ⟨i.query.path, i.query.sourceDir.components⟩ = none →
    ∀ p, i.Fills tc p → (i.made tc cache).cache.entries =
      cache.entries ++ [(⟨i.query.path, i.query.sourceDir.components⟩, p)]
  /-- An import that does not answer a package leaves the cache alone. -/
  cache_of_failure : (∀ p, (i.made tc cache).outcome ≠ .package p) →
    (i.made tc cache).cache = cache

end Import

/-- **The effects of an import.**  With the cache that any run of imports has left, an import has
the effects that its path, the cache and the build context's answer call for, and no other. -/
theorem effects_of_reached (tc : Toolchain σ S) (earlier : List (Import σ S)) (i : Import σ S) :
    i.Effects tc (cacheAfter tc .empty earlier) where
  of_empty := Import.made_of_empty tc _
  of_cached := by
    intro p hget
    have hkey : (cacheAfter tc .empty earlier).get? i.key = some p := hget
    refine Import.made_of_cached tc (fun hempty => ?_) hkey
    rw [Import.get?_reached_eq_none earlier (.inl hempty)] at hkey
    cases hkey
  of_lowLevel := fun hlow =>
    Import.made_of_lowLevel tc (Import.get?_reached_eq_none earlier (.inr hlow)) hlow
  of_not_located := fun h _ he => Import.onlyLocates_of_error h he
  of_root_lowLevel := fun h _ hl hroot => Import.onlyLocates_of_root_lowLevel h hl hroot
  of_root := fun h _ hl hroot hpath => Import.delegates_of_root tc h hl hroot hpath
  of_not_root := fun h _ hl hroot => Import.delegates_of_not_root tc h hl hroot
  actions_cases := Import.actions_made_cases tc _ i
  cache_cases := by
    rcases Import.cache_made_cases tc (cacheAfter tc .empty earlier) i with
      hsame | ⟨hget, p, hfills⟩
    · exact .inl hsame
    · obtain ⟨hdelegates, houtcome⟩ := Import.delegates_of_fills hget hfills
      have hactions := hdelegates.actions_eq
      rw [houtcome] at hactions
      exact .inr ⟨p, hfills, hactions, Import.entries_made_of_fills hget hfills⟩
  entries_of_fills := fun hget _ hfills => Import.entries_made_of_fills hget hfills
  cache_of_failure := by
    intro hfails
    rcases Import.cache_made_cases tc (cacheAfter tc .empty earlier) i with
      hsame | ⟨hget, p, hfills⟩
    · exact hsame
    · exact absurd (Import.delegates_of_fills hget hfills).2 (hfails p)

/-- An import of a path from a directory, in a request whose build context has all packages in the
toolchain's own distribution. -/
def rootImport (path dir : String) : Import (Capabilities × Nat) (StrategyKind × Nat) where
  importer := { root := (.default, 0), own := (.default, 1), build := .below "/go/src" true,
                debug := true }
  query := { path, sourceDir := ⟨dir⟩ }
  host := ({}, 2)

/-- After an import from `/app`, the same path is cached for another spelling of the directory.
Another path is not: it is located, imported by the shared strategy, and added to the cache. -/
theorem effects_of_reached_after_one :
    let tc := Toolchain.numbered
    let cache := cacheAfter tc .empty [rootImport "fmt" "/app"]
    let fmt : Package := { path := "fmt", name := "fmt" }
    let os : Package := { path := "os", name := "os" }
    cache.get? ⟨"fmt", Path.components ⟨"//app/."⟩⟩ = some fmt ∧
    (rootImport "fmt" "//app/.").made tc cache =
      { outcome := .package fmt, cache, host := ({}, 2) } ∧
    (rootImport "os" "/app").Misses cache ∧
    ((rootImport "os" "/app").made tc cache).actions =
      [.located "os" ⟨"/app"⟩,
        .called (.default, 0) { path := "os", sourceDir := ⟨"/app"⟩ } (.package os)] ∧
    (rootImport "os" "/app").Fills tc os ∧
    ((rootImport "os" "/app").made tc cache).cache.entries =
      cache.entries ++ [(⟨"os", Path.components ⟨"/app"⟩⟩, os)] := by
  intro tc cache fmt os
  have hcached : cache.get? ⟨"fmt", Path.components ⟨"//app/."⟩⟩ = some fmt := by decide +kernel
  have hmisses : (rootImport "os" "/app").Misses cache :=
    ⟨by decide, by decide, by decide +kernel⟩
  have hfills : (rootImport "os" "/app").Fills tc os :=
    ⟨by decide, by decide, BuildContext.below_locatesRoot_iff.mpr ⟨rfl, by decide⟩, rfl, rfl⟩
  have hsecond := effects_of_reached tc [rootImport "fmt" "/app"] (rootImport "fmt" "//app/.")
  have hother := effects_of_reached tc [rootImport "fmt" "/app"] (rootImport "os" "/app")
  have hroot := hother.of_root hmisses ⟨"os", ⟨"/go/src/os"⟩, true⟩ rfl rfl (by decide)
  have houtcome : ((rootImport "os" "/app").made tc cache).outcome = .package os :=
    (congrArg Prod.fst hroot.call_eq).symm
  refine ⟨hcached, hsecond.of_cached fmt hcached, hmisses, ?_, hfills,
    hother.entries_of_fills hmisses.get?_eq_none os hfills⟩
  exact hroot.actions_eq.trans (by rw [houtcome]; rfl)

/-- Reachability matters: a cache that holds the low-level path answers it. -/
example (tc : Toolchain σ S) (i : Import σ S) (h : i.query.path = lowLevelPath) (p : Package) :
    (i.made tc (Cache.empty.insert i.key p)).outcome = .package p := by
  have hempty : i.query.path ≠ "" := by
    rw [h]
    decide
  rw [Import.made_of_cached tc hempty (Cache.get?_insert_self .empty i.key p)]
  rfl

end GoResolver
