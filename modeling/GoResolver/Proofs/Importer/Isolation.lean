import GoResolver.Proofs.Importer.Run

/-!
# How far build contexts are isolated from one another

The cache is asked before the build context, and a key holds neither the context nor what it said.
So two requests whose contexts disagree about an import path are not isolated in general: what one
of them has as a root package the other is given too (`not_isolated_of_other_context`).

`isolated_or_filled` says exactly when.  Either an earlier import of the run filled the key, as a
root package of *its* request, and then the first such package is answered and nobody is asked; or
none did, and then the import is `Isolated`: what its own build context says decides, a package
outside the toolchain's own distribution comes from a call of its own strategy, and a failure to
locate is its answer.  An empty import path is refused before anybody is asked, so it is always
isolated.
-/

namespace GoResolver

variable {σ S : Type}

/-- With the given cache, the import depends on no request but its own. -/
structure Import.Isolated (tc : Toolchain σ S) (cache : Cache) (i : Import σ S) : Prop where
  /-- What is answered for a package that is no root package was imported just now, by the request's
  own strategy; the cache holds nothing. -/
  called_own : ∀ location : Location,
    (i.importer.build i.query.path i.query.sourceDir).result = .ok location →
    location.isRoot = false → ∀ p : Package, (i.made tc cache).outcome = .package p →
    .called i.importer.own i.query (.package p) ∈ (i.made tc cache).events ∧
      cache.get? i.key = none
  /-- What cannot be located is not imported. -/
  locate_error : i.query.path ≠ "" → ∀ e : ResolutionError,
    (i.importer.build i.query.path i.query.sourceDir).result = .error e →
    (i.made tc cache).outcome = .error e
  /-- An empty import path is an error of its own. -/
  empty_error : i.query.path = "" →
    (i.made tc cache).outcome = .error (.invalidImportPath "" "empty import path")

/-- An import of an empty path is isolated. -/
theorem Import.isolated_of_empty (tc : Toolchain σ S) (cache : Cache) {i : Import σ S}
    (hempty : i.query.path = "") : i.Isolated tc cache := by
  have houtcome : (i.made tc cache).outcome =
      .error (.invalidImportPath "" "empty import path") := by
    rw [Import.made, Importer.importFrom_of_empty tc _ _ _ _ hempty, hempty]
  refine ⟨?_, fun hne => absurd hempty hne, fun _ => houtcome⟩
  intro location _ _ p hp
  rw [houtcome] at hp
  simp at hp

/-- An import that misses the cache is isolated. -/
theorem Import.isolated_of_miss (tc : Toolchain σ S) {cache : Cache} {i : Import σ S}
    (hempty : i.query.path ≠ "") (hlow : i.query.path ≠ lowLevelPath)
    (hget : cache.get? i.key = none) : i.Isolated tc cache := by
  have hmiss := Importer.importFrom_of_miss tc i.importer i.query i.host cache hempty hget
  refine ⟨?_, ?_, fun h => absurd h hempty⟩
  · intro location hloc hroot p hp
    obtain ⟨houtcome, hcalled⟩ :=
      Importer.resolve_of_not_root tc i.importer i.query i.host hlow hloc hroot
    rw [Import.made, hmiss] at hp ⊢
    have hresolved : (Importer.resolve tc i.importer i.query i.host).outcome = .package p := hp
    rw [← houtcome, hresolved] at hcalled
    exact ⟨hcalled, hget⟩
  · intro _ e he
    rw [Import.made, hmiss]
    simp only [Importer.resolve_of_error tc i.importer i.query i.host hlow he]

/-- **An import is isolated, unless an earlier one filled its key.**  In the other case it is
answered the package of the first import that did, without asking a build context or a strategy. -/
theorem isolated_or_filled (tc : Toolchain σ S) (earlier : List (Import σ S)) (i : Import σ S)
    (hlow : i.query.path ≠ lowLevelPath) :
    ((∀ j ∈ earlier, j.key = i.key → ∀ p : Package, ¬ j.Fills tc p) ∧
      i.Isolated tc (cacheAfter tc .empty earlier)) ∨
    ∃ before j after p, earlier = before ++ j :: after ∧ j.key = i.key ∧ j.Fills tc p ∧
      (∀ k ∈ before, k.key = i.key → ∀ p' : Package, ¬ k.Fills tc p') ∧
      i.made tc (cacheAfter tc .empty earlier) =
        { outcome := .package p, cache := cacheAfter tc .empty earlier, host := i.host } := by
  by_cases hempty : i.query.path = ""
  · -- no import under this key fills it, since its path is empty as well
    refine .inl ⟨?_, Import.isolated_of_empty tc _ hempty⟩
    intro j _ hkey p hfills
    have hpath : j.query.path = i.query.path := (CacheKey.of_eq_of_iff.mp hkey).1
    exact hfills.path_ne_empty (hpath.trans hempty)
  · cases hget : (cacheAfter tc .empty earlier).get? i.key with
    | none =>
      exact .inl ⟨get?_cacheAfter_empty_eq_none_iff.mp hget,
        Import.isolated_of_miss tc hempty hlow hget⟩
    | some p =>
      obtain ⟨before, j, after, hsplit, hkey, hfills, hfirst⟩ :=
        get?_cacheAfter_empty_eq_some_iff.mp hget
      exact .inr ⟨before, j, after, p, hsplit, hkey, hfills, hfirst,
        Importer.importFrom_of_hit tc i.importer i.query i.host _ hempty hget⟩

/-- A run whose contexts disagree about `lib`, but from different directories: the second import is
isolated although the first filled the cache. -/
theorem isolated_of_other_directory :
    let first : Import (Capabilities × Nat) (StrategyKind × Nat) :=
      { importer := { root := (.default, 0), own := (.default, 1),
                      build := .below "/usr/go" true, debug := false }
        query := ⟨"lib", ⟨"/work/a"⟩, {}⟩
        host := ({}, 2) }
    let second : Import (Capabilities × Nat) (StrategyKind × Nat) :=
      { importer := { root := (.default, 0), own := (.default, 2),
                      build := .below "/home/go" false, debug := false }
        query := ⟨"lib", ⟨"/work/b"⟩, {}⟩
        host := ({}, 3) }
    second.query.path ≠ lowLevelPath ∧
      second.Isolated .numbered (cacheAfter .numbered .empty [first]) := by
  intro first second
  have hlow : second.query.path ≠ lowLevelPath := by decide
  have hkey : first.key ≠ second.key := by decide
  refine ⟨hlow, ?_⟩
  rcases isolated_or_filled .numbered [first] second hlow with
    ⟨-, h⟩ | ⟨before, j, after, p, hsplit, hj, -⟩
  · exact h
  · have hmem : j ∈ [first] := by rw [hsplit]; simp
    rw [List.mem_singleton.mp hmem] at hj
    exact absurd hj hkey

/-- **Contexts that disagree are not isolated.**  The first request has `lib` in its toolchain's own
distribution, the second does not; the second is given the first one's package all the same, and its
own strategy is not called. -/
theorem not_isolated_of_other_context :
    let first : Import (Capabilities × Nat) (StrategyKind × Nat) :=
      { importer := { root := (.default, 0), own := (.default, 1),
                      build := .below "/usr/go" true, debug := false }
        query := ⟨"lib", ⟨"/work"⟩, {}⟩
        host := ({}, 2) }
    let second : Import (Capabilities × Nat) (StrategyKind × Nat) :=
      { importer := { root := (.default, 0), own := (.default, 2),
                      build := .below "/home/go" false, debug := false }
        query := ⟨"lib", ⟨"/work"⟩, {}⟩
        host := ({}, 3) }
    second.query.path ≠ lowLevelPath ∧
      ¬ second.Isolated .numbered (cacheAfter .numbered .empty [first]) := by
  intro first second
  have hempty : second.query.path ≠ "" := by decide
  have hlow : second.query.path ≠ lowLevelPath := by decide
  have hfills : first.Fills .numbered { path := "lib", name := "lib" } :=
    ⟨hempty, hlow, BuildContext.below_locatesRoot_iff.mpr ⟨rfl, hlow⟩, rfl, rfl⟩
  have hget : (cacheAfter .numbered .empty [first]).get? second.key =
      some { path := "lib", name := "lib" } :=
    get?_cacheAfter_empty_eq_some_iff.mpr ⟨[], first, [], rfl, rfl, hfills, by simp⟩
  refine ⟨hlow, fun h => ?_⟩
  have hmade := Importer.importFrom_of_hit .numbered second.importer _ second.host _ hempty hget
  have houtcome : (second.made .numbered (cacheAfter .numbered .empty [first])).outcome =
      .package { path := "lib", name := "lib" } := by
    rw [Import.made, hmade]
  have hcalled := (h.called_own ⟨"lib", ⟨"/home/go/lib"⟩, false⟩ rfl rfl _ houtcome).1
  rw [Import.made, hmade] at hcalled
  simp at hcalled

end GoResolver
