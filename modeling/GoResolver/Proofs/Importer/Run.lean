import GoResolver.Proofs.Importer.Import

/-!
# Runs of imports

The cache outlives a request, so what an import answers depends on the imports before it.  A run is
the list of its imports, oldest first, whichever requests they belong to; imports of one request
have one importer.

## What a cache remembers

`get?_cacheAfter`: after a run, the cache answers a key with what it held before, and else with the
first package that an import of the run under that key would keep.  Nothing is said about hits and
misses inside the run: an import whose key is in the cache changes nothing, and it is never the
*first* one under its key, so it makes no difference whether it really was resolved.
-/

namespace GoResolver

variable {σ S : Type}

/-- One import of a run: who asks, for what, and the state that the toolchain is in by then.
Between two imports other requests begin and end, so no state is tied to the one before. -/
structure Import (σ S : Type) where
  importer : Importer S
  query : ImportQuery
  host : σ

namespace Import

/-! ## 1. What one import leaves behind -/

/-- What the import is found again under. -/
def key (i : Import σ S) : CacheKey := .of i.query.path i.query.sourceDir

/-- The import, made with a given cache. -/
def made (tc : Toolchain σ S) (i : Import σ S) (cache : Cache) : Imported σ S :=
  i.importer.importFrom tc i.query cache i.host

/-- The import leaves a package in a cache that holds nothing under its key: the request's own build
context places it as a root package, and the root strategy answers it with a complete one. -/
structure Fills (tc : Toolchain σ S) (i : Import σ S) (p : Package) : Prop where
  path_ne_empty : i.query.path ≠ ""
  path_ne_lowLevel : i.query.path ≠ lowLevelPath
  locatesRoot : i.importer.build.LocatesRoot i.query.path i.query.sourceDir
  call_eq : (tc.call i.importer.root i.query i.host).1 = .package p
  complete : p.complete = true

/-- The package that the import leaves under a key in a cache that holds nothing there. -/
def kept (tc : Toolchain σ S) (key : CacheKey) (i : Import σ S) : Option Package :=
  if i.key = key ∧ i.query.path ≠ "" then (i.importer.resolve tc i.query i.host).keep else none

theorem kept_eq_some_iff {tc : Toolchain σ S} {key : CacheKey} {i : Import σ S} {p : Package} :
    i.kept tc key = some p ↔ i.key = key ∧ i.Fills tc p := by
  rw [kept, Option.ite_none_right_eq_some, Importer.resolve_keep_eq_some_iff]
  constructor
  · rintro ⟨⟨hkey, hempty⟩, hlow, hroot, hcall, hp⟩
    exact ⟨hkey, hempty, hlow, hroot, hcall, hp⟩
  · rintro ⟨hkey, h⟩
    exact ⟨⟨hkey, h.path_ne_empty⟩, h.path_ne_lowLevel, h.locatesRoot, h.call_eq, h.complete⟩

theorem kept_eq_none_iff {tc : Toolchain σ S} {key : CacheKey} {i : Import σ S} :
    i.kept tc key = none ↔ (i.key = key → ∀ p : Package, ¬ i.Fills tc p) := by
  rw [Option.eq_none_iff_forall_ne_some]
  constructor
  · intro h hkey p hp
    exact h p (kept_eq_some_iff.mpr ⟨hkey, hp⟩)
  · intro h p hp
    obtain ⟨hkey, hfills⟩ := kept_eq_some_iff.mp hp
    exact h hkey p hfills

theorem kept_of_key_ne {tc : Toolchain σ S} {key : CacheKey} {i : Import σ S} (h : i.key ≠ key) :
    i.kept tc key = none :=
  kept_eq_none_iff.mpr fun hkey => absurd hkey h

/-- An import adds to a cache what it would keep, unless there is something already. -/
theorem get?_made (tc : Toolchain σ S) (i : Import σ S) (cache : Cache) (key : CacheKey) :
    (i.made tc cache).cache.get? key = (cache.get? key).or (i.kept tc key) := by
  rw [made]
  by_cases hempty : i.query.path = ""
  · have hkept : i.kept tc key = none := by simp [kept, hempty]
    rw [Importer.importFrom_of_empty tc _ _ _ _ hempty, hkept, Option.or_none]
  · cases hget : cache.get? i.key with
    | some p =>
      rw [Importer.importFrom_of_hit tc _ _ _ _ hempty hget]
      by_cases hkey : i.key = key
      · rw [← hkey, hget, Option.some_or]
      · rw [kept_of_key_ne hkey, Option.or_none]
    | none =>
      rw [Importer.importFrom_of_miss tc _ _ _ _ hempty hget]
      cases hkeep : (i.importer.resolve tc i.query i.host).keep with
      | none =>
        have hkept : i.kept tc key = none := by rw [kept, hkeep, ite_self]
        rw [hkept, Option.or_none]
      | some p =>
        by_cases hkey : i.key = key
        · have hkept : i.kept tc key = some p := by rw [kept, if_pos ⟨hkey, hempty⟩, hkeep]
          have hstored : cache.stored i.key p = p := by
            rw [Cache.stored, hget, Option.getD_none]
          rw [hkept, ← hkey, hget, Option.none_or]
          exact (Cache.get?_insert_self cache i.key p).trans (by rw [hstored])
        · rw [kept_of_key_ne hkey, Option.or_none]
          exact Cache.get?_insert_of_ne p (Ne.symm hkey)

/-- What a call that an import makes says about it: nothing was cached under its key, and the
strategy is the one for the place where the build context puts it. -/
structure Calls (tc : Toolchain σ S) (i : Import σ S) (cache : Cache) (strategy : S)
    (q : ImportQuery) (o : Outcome) : Prop where
  path_ne_empty : i.query.path ≠ ""
  path_ne_lowLevel : i.query.path ≠ lowLevelPath
  get?_eq_none : cache.get? i.key = none
  query_eq : q = i.query
  outcome_eq : o = (tc.call strategy i.query i.host).1
  exists_location : ∃ location,
    (i.importer.build i.query.path i.query.sourceDir).result = .ok location ∧
    strategy = i.importer.strategyFor location

theorem calls_of_mem {tc : Toolchain σ S} {i : Import σ S} {cache : Cache} {strategy : S}
    {q : ImportQuery} {o : Outcome} (h : .called strategy q o ∈ (i.made tc cache).events) :
    i.Calls tc cache strategy q o := by
  rw [made] at h
  by_cases hempty : i.query.path = ""
  · rw [Importer.importFrom_of_empty tc _ _ _ _ hempty] at h
    cases h
  cases hget : cache.get? (.of i.query.path i.query.sourceDir) with
  | some p =>
    rw [Importer.importFrom_of_hit tc _ _ _ _ hempty hget] at h
    cases h
  | none =>
    rw [Importer.importFrom_of_miss tc _ _ _ _ hempty hget] at h
    obtain ⟨hlow, hquery, houtcome, hlocation⟩ := Importer.of_called_mem_resolve h
    obtain ⟨location, hresult, rfl⟩ := hlocation
    exact ⟨hempty, hlow, hget, hquery, houtcome, location, hresult, rfl⟩

end Import

/-! ## 2. Runs -/

/-- The cache after the imports of a run, oldest first. -/
def cacheAfter (tc : Toolchain σ S) (cache : Cache) (run : List (Import σ S)) : Cache :=
  run.foldl (fun cache i => (i.made tc cache).cache) cache

/-- **A cache remembers what it held, and else the first package kept under the key.** -/
theorem get?_cacheAfter (tc : Toolchain σ S) (run : List (Import σ S)) (cache : Cache)
    (key : CacheKey) :
    (cacheAfter tc cache run).get? key =
      (cache.get? key).or (run.findSome? (Import.kept tc key)) := by
  induction run generalizing cache with
  | nil => simp [cacheAfter]
  | cons i run ih =>
    have hstep : cacheAfter tc cache (i :: run) = cacheAfter tc (i.made tc cache).cache run := rfl
    rw [hstep, ih, Import.get?_made, Option.or_assoc, List.findSome?_cons]
    cases i.kept tc key <;> rfl

theorem get?_cacheAfter_empty (tc : Toolchain σ S) (run : List (Import σ S)) (key : CacheKey) :
    (cacheAfter tc .empty run).get? key = run.findSome? (Import.kept tc key) := by
  rw [get?_cacheAfter, Cache.get?_empty, Option.none_or]

/-- An entry after a run is the package of the first import of the run that fills its key. -/
theorem get?_cacheAfter_empty_eq_some_iff {tc : Toolchain σ S} {run : List (Import σ S)}
    {key : CacheKey} {p : Package} :
    (cacheAfter tc .empty run).get? key = some p ↔
      ∃ before j after, run = before ++ j :: after ∧ j.key = key ∧ j.Fills tc p ∧
        ∀ k ∈ before, k.key = key → ∀ p' : Package, ¬ k.Fills tc p' := by
  rw [get?_cacheAfter_empty, List.findSome?_eq_some_iff]
  constructor
  · rintro ⟨before, j, after, hrun, hj, hbefore⟩
    obtain ⟨hkey, hfills⟩ := Import.kept_eq_some_iff.mp hj
    exact ⟨before, j, after, hrun, hkey, hfills,
      fun k hk => Import.kept_eq_none_iff.mp (hbefore k hk)⟩
  · rintro ⟨before, j, after, hrun, hkey, hfills, hbefore⟩
    exact ⟨before, j, after, hrun, Import.kept_eq_some_iff.mpr ⟨hkey, hfills⟩,
      fun k hk => Import.kept_eq_none_iff.mpr (hbefore k hk)⟩

/-- Without such an import there is no entry. -/
theorem get?_cacheAfter_empty_eq_none_iff {tc : Toolchain σ S} {run : List (Import σ S)}
    {key : CacheKey} :
    (cacheAfter tc .empty run).get? key = none ↔
      ∀ j ∈ run, j.key = key → ∀ p : Package, ¬ j.Fills tc p := by
  rw [get?_cacheAfter_empty, List.findSome?_eq_none_iff]
  constructor
  · intro h j hj
    exact Import.kept_eq_none_iff.mp (h j hj)
  · intro h j hj
    exact Import.kept_eq_none_iff.mpr (h j hj)

/-! ## 3. A toolchain to try things on -/

/-- A toolchain whose strategies are numbered as they are made, and which has complete packages for
all import paths.  Its state is what it can do and the number of the next strategy. -/
def Toolchain.numbered : Toolchain (Capabilities × Nat) (StrategyKind × Nat) where
  capabilities host := host.1
  create kind _ host := ((kind, host.2), (host.1, host.2 + 1))
  kind := Prod.fst
  call _ q host := (.package { path := q.path, name := q.path }, host)

/-- A build context that places every import path below one directory. -/
def BuildContext.below (dir : String) (isRoot : Bool) : BuildContext := fun path _ =>
  { result := .ok ⟨path, ⟨dir ++ "/" ++ path⟩, isRoot⟩ }

theorem BuildContext.below_locatesRoot_iff {dir path : String} {isRoot : Bool} {d : Path} :
    (BuildContext.below dir isRoot).LocatesRoot path d ↔
      isRoot = true ∧ path ≠ lowLevelPath := by
  simp [BuildContext.LocatesRoot, BuildContext.below]

end GoResolver
