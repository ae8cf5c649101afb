import GoResolver.Proofs.Importer.Run

/-!
# A cache that cannot be noticed

A run of imports with a cache answers as if there were none, when three things hold.

* One root strategy serves the whole run.
* Strategies are functions of the import path and the source directory (`Steady`), whatever the
  toolchain did in the meantime.
* The build contexts of the run agree on what is a root package (`BuildContext.AgreesOnRoots`).

## The invariant

An entry of the cache was kept by an earlier import of the run (`get?_cacheAfter_empty`), so some
request's build context placed it as a root package and the root strategy answered it.  Agreement
carries the first to the request that finds the entry now, and steadiness the second: without the
cache that request would ask the same strategy and get the same package.
-/

namespace GoResolver

variable {σ S : Type}

/-! ## 1. The assumptions -/

/-- A strategy that is a function of the import path and the source directory.  Of two spellings of
one directory only the packages have to agree: an error names the directory as it was written. -/
structure Steady (tc : Toolchain σ S) (s : S) : Prop where
  /-- Neither the mode nor the toolchain's state matters. -/
  outcome_eq : ∀ {q q' : ImportQuery} (host host' : σ), q.path = q'.path →
    q.sourceDir = q'.sourceDir → (tc.call s q host).1 = (tc.call s q' host').1
  /-- Nor does the spelling of the directory, for a package. -/
  package_of_same : ∀ {q q' : ImportQuery} (host host' : σ), q.path = q'.path →
    q.sourceDir.Same q'.sourceDir → ∀ p : Package,
    (tc.call s q host).1 = .package p → (tc.call s q' host').1 = .package p

/-- Two build contexts that place the same imports as root packages, directories being compared as
paths. -/
def BuildContext.AgreesOnRoots (build build' : BuildContext) : Prop :=
  ∀ (path : String) (dir dir' : Path), dir.Same dir' →
    (build.LocatesRoot path dir ↔ build'.LocatesRoot path dir')

/-! ## 2. Imports that leave the cache alone -/

namespace Importer

variable (tc : Toolchain σ S) (imp : Importer S) (q : ImportQuery)

/-- What an import answers that neither looks into the cache nor adds to it. -/
def fresh (host : σ) : Outcome :=
  if q.path = "" then .error (.invalidImportPath q.path "empty import path")
  else (resolve tc imp q host).outcome

theorem resolve_outcome_of_steady (hroot : Steady tc imp.root) (hown : Steady tc imp.own)
    (host host' : σ) :
    (resolve tc imp q host).outcome = (resolve tc imp q host').outcome := by
  have hcall : ∀ location : Location, (tc.call (imp.strategyFor location) q host).1 =
      (tc.call (imp.strategyFor location) q host').1 := by
    intro location
    rw [strategyFor]
    split
    · exact hroot.outcome_eq host host' rfl rfl
    · exact hown.outcome_eq host host' rfl rfl
  rw [resolve_outcome, resolve_outcome]
  split
  · rfl
  · cases (imp.build q.path q.sourceDir).result with
    | error e => rfl
    | ok location =>
      simp only [hcall location]

end Importer

/-! ## 3. Transparency -/

/-- **A cache cannot be noticed.**  Let one steady root strategy serve all requests of a run, let
the requests' own strategies be steady too, and let their build contexts agree on the root packages.
Then every import of the run answers what the same importer answers without a cache, in whatever
state the toolchain is then. -/
theorem outcome_made_eq_fresh (tc : Toolchain σ S) (root : S) (run : List (Import σ S))
    (hroot : ∀ i ∈ run, i.importer.root = root) (hsteady : Steady tc root)
    (hown : ∀ i ∈ run, Steady tc i.importer.own)
    (hagree : ∀ i ∈ run, ∀ j ∈ run, i.importer.build.AgreesOnRoots j.importer.build)
    (earlier later : List (Import σ S)) (i : Import σ S) (hrun : run = earlier ++ i :: later)
    (host : σ) :
    (i.made tc (cacheAfter tc .empty earlier)).outcome = i.importer.fresh tc i.query host := by
  have hi : i ∈ run := by rw [hrun]; simp
  have hearlier : ∀ j ∈ earlier, j ∈ run := by
    intro j hj
    rw [hrun]
    exact List.mem_append_left _ hj
  rw [Import.made, Importer.fresh]
  split
  · next hempty => rw [Importer.importFrom_of_empty tc _ _ _ _ hempty]
  · next hempty =>
    cases hget : (cacheAfter tc .empty earlier).get? i.key with
    | none =>
      rw [Importer.importFrom_of_miss tc _ _ _ _ hempty hget]
      have hroot' : Steady tc i.importer.root := by rw [hroot i hi]; exact hsteady
      exact Importer.resolve_outcome_of_steady tc i.importer i.query hroot' (hown i hi) i.host host
    | some p =>
      rw [Importer.importFrom_of_hit tc _ _ _ _ hempty hget]
      -- the earlier import that the entry comes from
      obtain ⟨before, j, after, hsplit, hkey, hfills, -⟩ :=
        get?_cacheAfter_empty_eq_some_iff.mp hget
      have hj : j ∈ run := hearlier j (by rw [hsplit]; simp)
      obtain ⟨hpath, hsame⟩ := CacheKey.of_eq_of_iff.mp hkey
      -- what it says about this one
      have hlow : i.query.path ≠ lowLevelPath := by
        rw [← hpath]
        exact hfills.path_ne_lowLevel
      have hlocates : i.importer.build.LocatesRoot i.query.path i.query.sourceDir := by
        rw [← hpath]
        exact (hagree j hj i hi _ _ _ hsame).mp hfills.locatesRoot
      have hcall : (tc.call i.importer.root i.query host).1 = .package p := by
        have hcall_j := hfills.call_eq
        rw [hroot j hj] at hcall_j
        rw [hroot i hi]
        exact hsteady.package_of_same j.host host hpath hsame p hcall_j
      rw [(Importer.resolve_of_locatesRoot tc _ _ _ hlow hlocates).1, hcall]

/-- Two requests with distributions in different places.  The second imports with tracing and spells
the directory differently; it finds the package of the first, and could as well have asked. -/
theorem outcome_made_eq_fresh_other_spelling :
    let root : StrategyKind × Nat := (.default, 0)
    let first : Import (Capabilities × Nat) (StrategyKind × Nat) :=
      { importer := { root, own := (.default, 1), build := .below "/usr/go" true, debug := false }
        query := ⟨"net/http", ⟨"/work/app"⟩, {}⟩
        host := ({}, 2) }
    let second : Import (Capabilities × Nat) (StrategyKind × Nat) :=
      { importer := { root, own := (.default, 2), build := .below "/opt/go" true, debug := true }
        query := ⟨"net/http", ⟨"/work//app/."⟩, ⟨7⟩⟩
        host := ({}, 3) }
    first.query.sourceDir.Same second.query.sourceDir ∧
      (second.made .numbered (cacheAfter .numbered .empty [first])).outcome =
        second.importer.fresh .numbered second.query ({}, 9) := by
  intro root first second
  have hsteady : ∀ s : StrategyKind × Nat, Steady .numbered s := by
    intro s
    refine ⟨?_, ?_⟩
    · intro q q' _ _ hpath _
      simp [Toolchain.numbered, hpath]
    · intro q q' _ _ hpath _ p hp
      simpa [Toolchain.numbered, hpath] using hp
  have hagree : ∀ dir dir' : String,
      (BuildContext.below dir true).AgreesOnRoots (.below dir' true) := by
    intro dir dir' path d d' _
    rw [BuildContext.below_locatesRoot_iff, BuildContext.below_locatesRoot_iff]
  refine ⟨by decide, ?_⟩
  refine outcome_made_eq_fresh .numbered root [first, second] ?_ (hsteady root) ?_ ?_ [first] []
    second rfl ({}, 9)
  · intro i hi
    simp only [List.mem_cons, List.not_mem_nil, or_false] at hi
    rcases hi with rfl | rfl <;> rfl
  · intro i _
    exact hsteady _
  · intro i hi j hj
    simp only [List.mem_cons, List.not_mem_nil, or_false] at hi hj
    rcases hi with rfl | rfl <;> rcases hj with rfl | rfl <;> exact hagree _ _

end GoResolver
