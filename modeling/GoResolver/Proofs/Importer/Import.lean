import GoResolver.Importer

/-!
# One import

What a single import does, said once, so that no later proof opens the importer again.

* `Importer.load_eq`, and `Importer.resolve_of_lowLevel`, `resolve_of_error`,
  `resolve_of_root_lowLevel`, `resolve_of_located`: an import without a cache, by the four ways it
  can go.
* `Importer.resolve_outcome`, `Importer.resolve_keep_eq_some_iff`: what it answers, and what it
  would keep.
* `Importer.importFrom_of_empty`, `importFrom_of_hit`, `importFrom_of_miss`: what the cache adds.
* `Importer.filled_of_mem_importFrom`: an entry that an import leaves in the cache was there before,
  or it is `Filled`, that is, the import called the root strategy for it.
-/

namespace GoResolver

variable {σ S : Type}

/-! ## 1. Keys and root packages -/

theorem CacheKey.of_eq_of_iff {p p' : String} {d d' : Path} :
    CacheKey.of p d = CacheKey.of p' d' ↔ p = p' ∧ d.Same d' := by
  rw [CacheKey.of, CacheKey.of, CacheKey.mk.injEq, Path.Same]

/-- A build context places the import path in the toolchain's own distribution, under another
canonical path than that of the low-level pseudo-package. -/
def BuildContext.LocatesRoot (build : BuildContext) (path : String) (dir : Path) : Prop :=
  ∃ location, (build path dir).result = .ok location ∧ location.isRoot = true ∧
    location.importPath ≠ lowLevelPath

/-- Only starting a session asks for capabilities and makes a shared strategy. -/
def Event.opens : Event S → Bool
  | .capabilities _ => true
  | .created _ .shared _ => true
  | _ => false

namespace Importer

variable (tc : Toolchain σ S) (imp : Importer S) (q : ImportQuery) (host : σ)

/-! ## 2. Imports without a cache -/

/-- What is seen of a build context that is asked for a location. -/
def lookupEvents : List (Event S) :=
  .located q.path q.sourceDir :: (imp.build q.path q.sourceDir).log.map .logged

/-- What is seen of a call of a strategy. -/
def callEvents (strategy : S) (outcome : Outcome) : List (Event S) :=
  .called strategy q outcome ::
    match outcome with
    | .error e => imp.trace ((tc.kind strategy).word ++ ".import_from") q e
    | _ => []

/-- What a call of the strategy for a location leaves to be kept. -/
def keepOf (location : Location) : Outcome → Option Package
  | .package p => if location.isRoot && p.complete then some p else none
  | _ => none

theorem keepOf_eq_some_iff {location : Location} {o : Outcome} {p : Package} :
    keepOf location o = some p ↔
      location.isRoot = true ∧ o = .package p ∧ p.complete = true := by
  cases o with
  | package p' =>
    rw [keepOf, Option.ite_none_right_eq_some, Option.some.injEq, Bool.and_eq_true,
      Outcome.package.injEq, and_assoc]
    constructor
    · rintro ⟨hroot, hp, rfl⟩
      exact ⟨hroot, rfl, hp⟩
    · rintro ⟨hroot, rfl, hp⟩
      exact ⟨hroot, hp, rfl⟩
  | error e => simp [keepOf]
  | panic p' => simp [keepOf]

theorem load_eq (location : Location) :
    load tc imp q location host =
      { outcome := (tc.call (imp.strategyFor location) q host).1
        keep := keepOf location (tc.call (imp.strategyFor location) q host).1
        events := imp.callEvents tc q (imp.strategyFor location)
          (tc.call (imp.strategyFor location) q host).1
        host := (tc.call (imp.strategyFor location) q host).2 } := by
  rcases hcall : tc.call (imp.strategyFor location) q host with ⟨o, host'⟩
  cases o <;> simp only [load, hcall] <;> rfl

theorem resolve_of_lowLevel (h : q.path = lowLevelPath) :
    resolve tc imp q host = { outcome := .package lowLevelPackage, host } := by
  rw [resolve, if_pos h]

theorem resolve_of_error {e : ResolutionError} (h : q.path ≠ lowLevelPath)
    (he : (imp.build q.path q.sourceDir).result = .error e) :
    resolve tc imp q host =
      { outcome := .error e
        events := imp.lookupEvents q ++ imp.trace "locate" q e
        host } := by
  rw [resolve, if_neg h]
  simp only [he]
  rfl

theorem resolve_of_root_lowLevel {location : Location} (h : q.path ≠ lowLevelPath)
    (hloc : (imp.build q.path q.sourceDir).result = .ok location)
    (hroot : location.isRoot ∧ location.importPath = lowLevelPath) :
    resolve tc imp q host =
      { outcome := .package lowLevelPackage, events := imp.lookupEvents q, host } := by
  rw [resolve, if_neg h]
  simp only [hloc, if_pos hroot]
  rfl

theorem resolve_of_located {location : Location} (h : q.path ≠ lowLevelPath)
    (hloc : (imp.build q.path q.sourceDir).result = .ok location)
    (hroot : ¬ (location.isRoot ∧ location.importPath = lowLevelPath)) :
    resolve tc imp q host =
      { outcome := (tc.call (imp.strategyFor location) q host).1
        keep := keepOf location (tc.call (imp.strategyFor location) q host).1
        events := imp.lookupEvents q ++ imp.callEvents tc q (imp.strategyFor location)
          (tc.call (imp.strategyFor location) q host).1
        host := (tc.call (imp.strategyFor location) q host).2 } := by
  rw [resolve, if_neg h]
  simp only [hloc, if_neg hroot, load_eq]
  rfl

/-- What an import without a cache answers. -/
theorem resolve_outcome :
    (resolve tc imp q host).outcome =
      if q.path = lowLevelPath then .package lowLevelPackage
      else match (imp.build q.path q.sourceDir).result with
        | .error e => .error e
        | .ok location =>
          if location.isRoot ∧ location.importPath = lowLevelPath then .package lowLevelPackage
          else (tc.call (imp.strategyFor location) q host).1 := by
  split
  · next hlow => rw [resolve_of_lowLevel tc imp q host hlow]
  · next hlow =>
    split
    · next e he => rw [resolve_of_error tc imp q host hlow he]
    · next location hloc =>
      split
      · next hroot => rw [resolve_of_root_lowLevel tc imp q host hlow hloc hroot]
      · next hroot => rw [resolve_of_located tc imp q host hlow hloc hroot]

/-- What an import without a cache would keep: a complete package of the root strategy. -/
theorem resolve_keep_eq_some_iff {p : Package} :
    (resolve tc imp q host).keep = some p ↔
      q.path ≠ lowLevelPath ∧ imp.build.LocatesRoot q.path q.sourceDir ∧
        (tc.call imp.root q host).1 = .package p ∧ p.complete = true := by
  by_cases hlow : q.path = lowLevelPath
  · rw [resolve_of_lowLevel tc imp q host hlow]
    simp [hlow]
  · cases hresult : (imp.build q.path q.sourceDir).result with
    | error e =>
      rw [resolve_of_error tc imp q host hlow hresult]
      simp [BuildContext.LocatesRoot, hresult]
    | ok location =>
      have hroot : imp.build.LocatesRoot q.path q.sourceDir ↔
          location.isRoot = true ∧ location.importPath ≠ lowLevelPath := by
        simp [BuildContext.LocatesRoot, hresult]
      rw [hroot]
      by_cases h : location.isRoot ∧ location.importPath = lowLevelPath
      · rw [resolve_of_root_lowLevel tc imp q host hlow hresult h]
        simp [h.2]
      · rw [resolve_of_located tc imp q host hlow hresult h, keepOf_eq_some_iff]
        constructor
        · rintro ⟨hr, hcall, hp⟩
          rw [strategyFor, if_pos hr] at hcall
          exact ⟨hlow, ⟨hr, fun hpath => h ⟨hr, hpath⟩⟩, hcall, hp⟩
        · rintro ⟨-, ⟨hr, -⟩, hcall, hp⟩
          rw [strategyFor, if_pos hr]
          exact ⟨hr, hcall, hp⟩

/-- What the strategy for a location answers is the answer, and the call is seen. -/
theorem resolve_called {location : Location} (hlow : q.path ≠ lowLevelPath)
    (hloc : (imp.build q.path q.sourceDir).result = .ok location)
    (hroot : ¬ (location.isRoot ∧ location.importPath = lowLevelPath)) :
    (resolve tc imp q host).outcome = (tc.call (imp.strategyFor location) q host).1 ∧
      .called (imp.strategyFor location) q (tc.call (imp.strategyFor location) q host).1 ∈
        (resolve tc imp q host).events := by
  rw [resolve_of_located tc imp q host hlow hloc hroot]
  exact ⟨rfl, List.mem_append_right _ List.mem_cons_self⟩

/-- A root package is imported by the root strategy. -/
theorem resolve_of_locatesRoot (hlow : q.path ≠ lowLevelPath)
    (hroot : imp.build.LocatesRoot q.path q.sourceDir) :
    (resolve tc imp q host).outcome = (tc.call imp.root q host).1 ∧
      .called imp.root q (tc.call imp.root q host).1 ∈ (resolve tc imp q host).events := by
  obtain ⟨location, hloc, hr, hpath⟩ := hroot
  have hstrategy : imp.strategyFor location = imp.root := by rw [strategyFor, if_pos hr]
  rw [← hstrategy]
  exact resolve_called tc imp q host hlow hloc fun h => hpath h.2

/-- Any other package is imported by the request's own strategy. -/
theorem resolve_of_not_root {location : Location} (hlow : q.path ≠ lowLevelPath)
    (hloc : (imp.build q.path q.sourceDir).result = .ok location)
    (hroot : location.isRoot = false) :
    (resolve tc imp q host).outcome = (tc.call imp.own q host).1 ∧
      .called imp.own q (tc.call imp.own q host).1 ∈ (resolve tc imp q host).events := by
  have hne : ¬ (location.isRoot ∧ location.importPath = lowLevelPath) := by simp [hroot]
  have hstrategy : imp.strategyFor location = imp.own := by
    rw [strategyFor, hroot, if_neg Bool.false_ne_true]
  rw [← hstrategy]
  exact resolve_called tc imp q host hlow hloc hne

/-- What would be kept is what is answered. -/
theorem resolve_outcome_of_keep {p : Package} (h : (resolve tc imp q host).keep = some p) :
    (resolve tc imp q host).outcome = .package p := by
  obtain ⟨hlow, hroot, hcall, -⟩ := (resolve_keep_eq_some_iff tc imp q host).mp h
  rw [(resolve_of_locatesRoot tc imp q host hlow hroot).1, hcall]

theorem opens_of_mem_trace {step : String} {e : ResolutionError} {event : Event S}
    (h : event ∈ imp.trace step q e) : event.opens = false := by
  rw [trace] at h
  split at h
  · rw [List.mem_singleton.mp h]
    rfl
  · simp at h

theorem opens_of_mem_lookupEvents {event : Event S} (h : event ∈ imp.lookupEvents q) :
    event.opens = false := by
  rw [lookupEvents, List.mem_cons, List.mem_map] at h
  rcases h with rfl | ⟨record, -, rfl⟩
  · rfl
  · rfl

theorem opens_of_mem_callEvents {strategy : S} {o : Outcome} {event : Event S}
    (h : event ∈ imp.callEvents tc q strategy o) : event.opens = false := by
  rcases List.mem_cons.mp h with rfl | h
  · rfl
  · cases o with
    | error e => exact imp.opens_of_mem_trace q h
    | package p => simp at h
    | panic p => simp at h

theorem opens_of_mem_resolve {event : Event S} (h : event ∈ (resolve tc imp q host).events) :
    event.opens = false := by
  by_cases hlow : q.path = lowLevelPath
  · rw [resolve_of_lowLevel tc imp q host hlow] at h
    simp at h
  · cases hresult : (imp.build q.path q.sourceDir).result with
    | error e =>
      rw [resolve_of_error tc imp q host hlow hresult] at h
      rcases List.mem_append.mp h with h | h
      · exact imp.opens_of_mem_lookupEvents q h
      · exact imp.opens_of_mem_trace q h
    | ok location =>
      by_cases hroot : location.isRoot ∧ location.importPath = lowLevelPath
      · rw [resolve_of_root_lowLevel tc imp q host hlow hresult hroot] at h
        exact imp.opens_of_mem_lookupEvents q h
      · rw [resolve_of_located tc imp q host hlow hresult hroot] at h
        rcases List.mem_append.mp h with h | h
        · exact imp.opens_of_mem_lookupEvents q h
        · exact imp.opens_of_mem_callEvents tc q h

/-! ## 3. Imports with a cache -/

variable (cache : Cache)

theorem importFrom_of_empty (h : q.path = "") :
    importFrom tc imp q cache host =
      { outcome := .error (.invalidImportPath q.path "empty import path"), cache, host } := by
  rw [importFrom, if_pos h]

theorem importFrom_of_hit {p : Package} (h : q.path ≠ "")
    (hget : cache.get? (.of q.path q.sourceDir) = some p) :
    importFrom tc imp q cache host = { outcome := .package p, cache, host } := by
  rw [importFrom, if_neg h]
  simp only [hget]

/-- A miss is answered as without a cache. -/
theorem importFrom_of_miss (h : q.path ≠ "")
    (hget : cache.get? (.of q.path q.sourceDir) = none) :
    importFrom tc imp q cache host =
      { outcome := (resolve tc imp q host).outcome
        cache := match (resolve tc imp q host).keep with
          | none => cache
          | some p => cache.insert (.of q.path q.sourceDir) p
        events := (resolve tc imp q host).events
        host := (resolve tc imp q host).host } := by
  rw [importFrom, if_neg h]
  simp only [hget]
  cases hkeep : (resolve tc imp q host).keep with
  | none => rfl
  | some p =>
    have hstored : cache.stored (.of q.path q.sourceDir) p = p := by
      rw [Cache.stored, hget, Option.getD_none]
    simp only [hstored, resolve_outcome_of_keep tc imp q host hkeep]

theorem opens_of_mem_importFrom {event : Event S}
    (h : event ∈ (importFrom tc imp q cache host).events) : event.opens = false := by
  by_cases hempty : q.path = ""
  · rw [importFrom_of_empty tc imp q host cache hempty] at h
    simp at h
  · cases hget : cache.get? (.of q.path q.sourceDir) with
    | some p =>
      rw [importFrom_of_hit tc imp q host cache hempty hget] at h
      simp at h
    | none =>
      rw [importFrom_of_miss tc imp q host cache hempty hget] at h
      exact opens_of_mem_resolve tc imp q host h

end Importer

/-! ## 4. Where entries come from -/

theorem Importer.called_not_mem_trace {imp : Importer S} {step : String} {q q' : ImportQuery}
    {e : ResolutionError} {strategy : S} {o : Outcome} :
    .called strategy q' o ∉ imp.trace step q e := by
  rw [trace]
  split <;> simp

theorem Importer.called_not_mem_lookupEvents {imp : Importer S} {q q' : ImportQuery} {strategy : S}
    {o : Outcome} : .called strategy q' o ∉ imp.lookupEvents q := by
  simp [lookupEvents]

/-- The call of a strategy is the only one to be seen. -/
theorem Importer.eq_of_called_mem_callEvents {tc : Toolchain σ S} {imp : Importer S}
    {q q' : ImportQuery} {strategy strategy' : S} {o o' : Outcome}
    (h : .called strategy' q' o' ∈ imp.callEvents tc q strategy o) :
    strategy' = strategy ∧ q' = q ∧ o' = o := by
  rcases List.mem_cons.mp h with h | h
  · exact Event.called.inj h
  · cases o with
    | error e => exact absurd h called_not_mem_trace
    | package p => cases h
    | panic p => cases h

/-- Without a cache, the strategy for the location of the import path is called, and no other. -/
theorem Importer.of_called_mem_resolve {tc : Toolchain σ S} {imp : Importer S}
    {q q' : ImportQuery} {host : σ} {strategy : S} {o : Outcome}
    (h : .called strategy q' o ∈ (imp.resolve tc q host).events) :
    q.path ≠ lowLevelPath ∧ q' = q ∧ o = (tc.call strategy q host).1 ∧
      ∃ location, (imp.build q.path q.sourceDir).result = .ok location ∧
        strategy = imp.strategyFor location := by
  by_cases hlow : q.path = lowLevelPath
  · rw [resolve_of_lowLevel tc imp q host hlow] at h
    cases h
  cases hresult : (imp.build q.path q.sourceDir).result with
  | error e =>
    rw [resolve_of_error tc imp q host hlow hresult] at h
    rcases List.mem_append.mp h with h | h
    · exact absurd h called_not_mem_lookupEvents
    · exact absurd h called_not_mem_trace
  | ok location =>
    by_cases hroot : location.isRoot ∧ location.importPath = lowLevelPath
    · rw [resolve_of_root_lowLevel tc imp q host hlow hresult hroot] at h
      exact absurd h called_not_mem_lookupEvents
    · rw [resolve_of_located tc imp q host hlow hresult hroot] at h
      rcases List.mem_append.mp h with h | h
      · exact absurd h called_not_mem_lookupEvents
      · obtain ⟨rfl, rfl, rfl⟩ := eq_of_called_mem_callEvents h
        exact ⟨hlow, rfl, rfl, location, rfl, rfl⟩

theorem Cache.mem_insert {c : Cache} {key : CacheKey} {p : Package} {entry : CacheKey × Package}
    (h : entry ∈ (c.insert key p).entries) : entry ∈ c.entries ∨ entry = (key, p) := by
  unfold Cache.insert at h
  split at h
  · exact .inl h
  · rcases List.mem_append.mp h with h | h
    · exact .inl h
    · exact .inr (List.mem_singleton.mp h)

/-- A cache entry that comes from a call of the root strategy among the given events. -/
structure Filled (root : S) (events : List (Event S)) (entry : CacheKey × Package) : Prop where
  complete : entry.2.complete = true
  path_ne_empty : entry.1.importPath ≠ ""
  path_ne_lowLevel : entry.1.importPath ≠ lowLevelPath
  /-- The call was for the path and the directory that the entry is found under, in any spelling of
  the directory. -/
  called : ∃ q : ImportQuery, q.path = entry.1.importPath ∧
    q.sourceDir.components = entry.1.sourceDir ∧ .called root q (.package entry.2) ∈ events

theorem Filled.mono {root : S} {events events' : List (Event S)} {entry : CacheKey × Package}
    (h : Filled root events entry) (hsub : events ⊆ events') : Filled root events' entry where
  complete := h.complete
  path_ne_empty := h.path_ne_empty
  path_ne_lowLevel := h.path_ne_lowLevel
  called := by
    obtain ⟨q, hpath, hdir, hcalled⟩ := h.called
    exact ⟨q, hpath, hdir, hsub hcalled⟩

/-- **An import fills the cache only by a call of the root strategy.** -/
theorem Importer.filled_of_mem_importFrom (tc : Toolchain σ S) (imp : Importer S) (q : ImportQuery)
    (host : σ) (cache : Cache) {entry : CacheKey × Package}
    (h : entry ∈ (importFrom tc imp q cache host).cache.entries) :
    entry ∈ cache.entries ∨ Filled imp.root (importFrom tc imp q cache host).events entry := by
  by_cases hempty : q.path = ""
  · rw [importFrom_of_empty tc imp q host cache hempty] at h
    exact .inl h
  · cases hget : cache.get? (.of q.path q.sourceDir) with
    | some p =>
      rw [importFrom_of_hit tc imp q host cache hempty hget] at h
      exact .inl h
    | none =>
      rw [importFrom_of_miss tc imp q host cache hempty hget] at h ⊢
      cases hkeep : (resolve tc imp q host).keep with
      | none =>
        simp only [hkeep] at h
        exact .inl h
      | some p =>
        simp only [hkeep] at h
        rcases Cache.mem_insert h with h | rfl
        · exact .inl h
        · obtain ⟨hlow, hroot, hcall, hp⟩ := (resolve_keep_eq_some_iff tc imp q host).mp hkeep
          have hevent := (resolve_of_locatesRoot tc imp q host hlow hroot).2
          rw [hcall] at hevent
          exact .inr ⟨hp, hempty, hlow, q, rfl, rfl, hevent⟩

end GoResolver
