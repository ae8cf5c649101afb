import GoResolver.Proofs.GoContext.Places
import GoResolver.Proofs.Importer.Run
import GoResolver.Proofs.Path.Resolution

/-!
# Root packages and the toolchain's own tree

A location that is marked as a root package should be inside the toolchain's source tree.  The mark
is set in three places: for a local import path, for a vendored package, and for a package that a
source tree has under its own name.  All three take the mark of a source tree that the directory is
*written* behind, so by `Path.resolved_prefix_of_not_climbs` it is enough that what is written there
does not climb.

* A local import path is normalized before it is compared with the source trees, so nothing climbs.
* The elements of any other valid import path are names, and names do not climb.
* A vendored package has a beginning of the importing directory's rest before these names.  That
  directory is *not* normalized, and its rest may climb: from `GOROOT/src/../../app` the `vendor`
  directory of `app` is searched, and what is found there is marked.

So the mark is sound unless the importing directory of an import path that is not local is written
as the toolchain's source tree with a way out of it (`located_inRootTree`).  In that case a
candidate outside the tree is marked (`exists_mem_candidates_of_climbs`), and it may be the one that
is found (`not_inRootTree_of_climbing`).  What the shared strategy is called for, and what is
cached, is located as a root package (`Import.exists_root_of_called`,
`Import.exists_root_of_mem_made`), and so the same holds of it.
-/

namespace GoResolver

/-! ## 1. What is marked, and where it may be -/

namespace GoContext

/-- The directory is inside the toolchain's source tree, when both are resolved. -/
def InRootTree (ctx : GoContext) (cwd : List String) (dir : Path) : Prop :=
  ∃ goroot, ctx.goroot = some goroot ∧ (goroot.child "src").resolved cwd <+: dir.resolved cwd

/-- The directory is written as the toolchain's source tree with a way out of it. -/
def ClimbsOutOfRootTree (ctx : GoContext) (dir : Path) : Prop :=
  ∃ goroot below, ctx.goroot = some goroot ∧
    dir.components = (goroot.child "src").components ++ below ∧ Path.climbs 0 below = true

variable {ctx : GoContext} {files : FileTree} {path : String} {sourceDir : Path}

/-- The directory is written behind a source tree, with nothing that climbs. -/
def StaysBehind (tree : SourceTree) (dir : Path) : Prop :=
  ∃ below, dir.components = tree.dir.components ++ below ∧ Path.climbs 0 below = false

/-- Only the toolchain's own tree is marked. -/
theorem exists_goroot_of_mem_trees {tree : SourceTree} (h : tree ∈ ctx.trees)
    (hroot : tree.isRoot = true) :
    ∃ goroot, ctx.goroot = some goroot ∧ tree.dir = goroot.child "src" := by
  rcases mem_trees h with ⟨goroot, hgoroot, rfl⟩ | ⟨root, -, rfl⟩
  · exact ⟨goroot, hgoroot, rfl⟩
  · cases hroot

theorem StaysBehind.inRootTree {tree : SourceTree} {dir : Path} (h : StaysBehind tree dir)
    (hmem : tree ∈ ctx.trees) (hroot : tree.isRoot = true) (cwd : List String) :
    ctx.InRootTree cwd dir := by
  obtain ⟨below, hcomponents, hbelow⟩ := h
  obtain ⟨goroot, hgoroot, hdir⟩ := exists_goroot_of_mem_trees hmem hroot
  rw [hdir] at hcomponents
  exact ⟨goroot, hgoroot, Path.resolved_prefix_of_not_climbs cwd hcomponents hbelow⟩

/-! ### The three places where the mark is set -/

/-- A local import path leads to a directory that was normalized. -/
theorem staysBehind_of_localLocation {dir : Path}
    (hroot : (ctx.localLocation path dir.normalize).isRoot = true) :
    ∃ tree ∈ ctx.trees, tree.isRoot = true ∧
      StaysBehind tree (ctx.localLocation path dir.normalize).dir := by
  rw [localLocation] at hroot ⊢
  cases h : ctx.enclosing? dir.normalize with
  | none =>
    rw [h] at hroot
    cases hroot
  | some found =>
    obtain ⟨tree, rest⟩ := found
    rw [h] at hroot
    obtain ⟨hmem, -, hcomponents, -⟩ := enclosing?_eq_some h
    obtain ⟨above, habove⟩ := exists_components_of_mem_trees hmem
    refine ⟨tree, hmem, hroot, rest.components, hcomponents, ?_⟩
    rw [habove] at hcomponents
    exact Path.not_climbs_of_components_normalize hcomponents

/-- A source tree has a package under the names of its import path. -/
theorem staysBehind_of_mem_treeCandidates (hvalid : ImportPath.validate path = .ok ())
    (hlocal : ImportPath.isLocal path = false) {l : Location} (h : l ∈ ctx.treeCandidates path) :
    ∃ tree ∈ ctx.trees, tree.isRoot = l.isRoot ∧ StaysBehind tree l.dir := by
  obtain ⟨tree, hmem, rfl⟩ := List.mem_map.mp h
  refine ⟨tree, hmem, rfl, _, ImportPath.components_child_of_valid hvalid hlocal tree.dir, ?_⟩
  exact Path.climbs_append_names 0 [] _

/-- A vendored package stays behind its tree if the importing directory does. -/
theorem staysBehind_of_mem_vendorCandidates (hvalid : ImportPath.validate path = .ok ())
    (hlocal : ImportPath.isLocal path = false) {l : Location}
    (h : l ∈ ctx.vendorCandidates path sourceDir) :
    ∃ tree ∈ ctx.trees, tree.isRoot = l.isRoot ∧
      (StaysBehind tree l.dir ∨ ∃ below, Path.climbs 0 below = true ∧
        sourceDir.components = tree.dir.components ++ below) := by
  rw [vendorCandidates] at h
  split at h
  · cases h
  · next tree rest henclosing =>
    obtain ⟨sub, hsub, rfl⟩ := List.mem_map.mp h
    obtain ⟨hmem, hlead, hcomponents, -⟩ := enclosing?_eq_some henclosing
    refine ⟨tree, hmem, rfl, ?_⟩
    cases hclimbs : Path.climbs 0 sub.components with
    | true =>
      have hbelow : sub.components <+: rest.components :=
        Path.components_prefix_of_mem_ancestors hlead hsub
      exact .inr ⟨rest.components, Path.climbs_of_prefix_of_climbs hbelow hclimbs, hcomponents⟩
    | false =>
      have hdir := components_vendored hvalid hlocal tree (Path.lead_of_mem_ancestors hlead hsub)
      rw [List.append_assoc] at hdir
      refine .inl ⟨_, hdir, ?_⟩
      rw [← hclimbs]
      exact Path.climbs_append_names 0 sub.components ("vendor" :: ImportPath.elements path)

/-! ### Importing directories that climb -/

/-- The toolchain's own tree comes first, so it is the one that is found to contain a directory. -/
theorem enclosing?_of_goroot {goroot : Path} (hgoroot : ctx.goroot = some goroot)
    {below : List Component}
    (hcomponents : sourceDir.components = (goroot.child "src").components ++ below) :
    ∃ rest, ctx.enclosing? sourceDir = some (⟨goroot.child "src", true⟩, rest) ∧
      rest.lead = none ∧ rest.components = below := by
  have hfind : ctx.trees.find? (fun t => t.dir.components.isPrefixOf sourceDir.components) =
      some ⟨goroot.child "src", true⟩ := by
    rw [trees, rootTree?, hgoroot]
    refine List.find?_cons_of_pos ?_
    rw [List.isPrefixOf_iff_prefix, hcomponents]
    exact List.prefix_append _ _
  cases h : ctx.enclosing? sourceDir with
  | none =>
    rw [enclosing?_eq_none_iff.mp h] at hfind
    cases hfind
  | some found =>
    obtain ⟨tree, rest⟩ := found
    obtain ⟨-, hlead, hrest, htree⟩ := enclosing?_eq_some h
    rw [htree, Option.some_inj] at hfind
    rw [hfind, hcomponents, List.append_cancel_left_eq] at hrest
    exact ⟨rest, by rw [hfind], hlead, hrest.symm⟩

theorem resolved_child_src (root : Path) (cwd : List String) :
    (root.child "src").resolved cwd = root.resolved cwd ++ ["src"] := by
  rw [Path.resolved, components_child_src, List.foldl_append]
  rfl

/-- **An importing directory that climbs has a candidate that is marked and outside.**  Where the
components behind the tree first climb, they have led back to it, and one more `..` leads to the
directory around it. -/
theorem exists_mem_candidates_of_climbs (hvalid : ImportPath.validate path = .ok ())
    (hlocal : ImportPath.isLocal path = false) (h : ctx.ClimbsOutOfRootTree sourceDir)
    (cwd : List String) :
    ∃ l ∈ ctx.candidates path sourceDir, l.isRoot = true ∧ ¬ ctx.InRootTree cwd l.dir := by
  obtain ⟨goroot, below, hgoroot, hcomponents, hclimbs⟩ := h
  obtain ⟨rest, henclosing, hlead, rfl⟩ := enclosing?_of_goroot hgoroot hcomponents
  have hroot : .root ∉ rest.components := by
    intro hmem
    rw [Path.components_eq_steps hlead] at hmem
    rcases (Path.isStep_of_mem_steps hmem).eq_up_or_name with h | ⟨s, h⟩ <;> cases h
  obtain ⟨front, behind, hrest, hback⟩ := Path.exists_up_of_climbs hroot [] hclimbs
  -- the subdirectory that ends in the first `..` that climbs
  obtain ⟨sub, hsub, hsubcomponents⟩ :
      ∃ sub ∈ rest.ancestors, sub.components = front ++ [.up] := by
    have hmem : front ++ [.up] ∈ rest.ancestors.map Path.components := by
      rw [Path.components_ancestors hlead, List.mem_reverse, List.mem_inits, hrest]
      exact ⟨behind, by rw [List.append_assoc, List.singleton_append]⟩
    exact List.mem_map.mp hmem
  have hup : sub.components.foldl Path.enter ((goroot.child "src").resolved cwd) =
      goroot.resolved cwd := by
    have hfront := hback ((goroot.child "src").resolved cwd)
    rw [List.append_nil] at hfront
    rw [hsubcomponents, List.foldl_append, hfront, resolved_child_src]
    exact List.dropLast_concat
  refine ⟨vendored ⟨goroot.child "src", true⟩ sub path, ?_, rfl, ?_⟩
  · rw [candidates, vendorCandidates, henclosing]
    exact List.mem_append_left _ (List.mem_map_of_mem hsub)
  · rintro ⟨goroot', hgoroot', hinside⟩
    rw [← Option.some_inj.mp (hgoroot.symm.trans hgoroot'),
      resolved_vendored hvalid hlocal _ (Path.lead_of_mem_ancestors hlead hsub), hup,
      resolved_child_src, List.prefix_append_right_inj, List.cons_prefix_cons] at hinside
    exact absurd hinside.1 (by decide)

/-! ## 2. Locations -/

/-- What is located was the target of a valid import path. -/
theorem target_of_locate {l : Location}
    (h : (ctx.locate files path sourceDir).result = .ok l) :
    ImportPath.validate path = .ok () ∧ ctx.target files path sourceDir = .ok l := by
  rw [locate] at h
  split at h
  · cases h
  · next hvalid =>
    split at h
    · cases h
    · next location htarget =>
      rw [accept] at h
      split at h
      · cases h
      · dsimp only at h
        split at h
        · cases h
        · rw [Except.ok.inj h] at htarget
          exact ⟨hvalid, htarget⟩
        · cases h

/-- A local import path leads into the toolchain's own tree, or its location is not marked. -/
theorem inRootTree_of_isLocal (hlocal : ImportPath.isLocal path = true) {l : Location}
    (htarget : ctx.target files path sourceDir = .ok l) (hroot : l.isRoot = true)
    (cwd : List String) : ctx.InRootTree cwd l.dir := by
  rw [target, hlocal, if_pos rfl] at htarget
  dsimp only at htarget
  split at htarget
  · rw [← Except.ok.inj htarget] at hroot ⊢
    obtain ⟨tree, hmem, htree, hstays⟩ := staysBehind_of_localLocation hroot
    exact hstays.inRootTree hmem htree cwd
  · cases htarget

/-- What any other import path leads to was a candidate. -/
theorem mem_candidates_of_target (hlocal : ImportPath.isLocal path = false) {l : Location}
    (htarget : ctx.target files path sourceDir = .ok l) : l ∈ ctx.candidates path sourceDir := by
  rw [target, hlocal, if_neg Bool.false_ne_true] at htarget
  split at htarget
  · next location hfind =>
    rw [← Except.ok.inj htarget]
    exact List.mem_of_find?_eq_some hfind
  · cases htarget

/-- A candidate that is marked is inside the toolchain's own tree, if the importing directory does
not climb out of it. -/
theorem inRootTree_of_mem_candidates (hvalid : ImportPath.validate path = .ok ())
    (hlocal : ImportPath.isLocal path = false) (hstays : ¬ ctx.ClimbsOutOfRootTree sourceDir)
    {l : Location} (hl : l ∈ ctx.candidates path sourceDir) (hroot : l.isRoot = true)
    (cwd : List String) : ctx.InRootTree cwd l.dir := by
  rcases List.mem_append.mp hl with hmem | hmem
  · obtain ⟨tree, htree, htreeroot, hl | ⟨below, hbelow, hcomponents⟩⟩ :=
      staysBehind_of_mem_vendorCandidates hvalid hlocal hmem
    · exact hl.inRootTree htree (htreeroot.trans hroot) cwd
    · obtain ⟨goroot, hgoroot, hdir⟩ := exists_goroot_of_mem_trees htree (htreeroot.trans hroot)
      rw [hdir] at hcomponents
      exact absurd ⟨goroot, below, hgoroot, hcomponents, hbelow⟩ hstays
  · obtain ⟨tree, htree, htreeroot, hl⟩ := staysBehind_of_mem_treeCandidates hvalid hlocal hmem
    exact hl.inRootTree htree (htreeroot.trans hroot) cwd

/-- **A root package is inside the toolchain's own tree**, unless the import path is not local and
the importing directory climbs out of that tree. -/
theorem inRootTree_of_locate
    (h : ImportPath.isLocal path = true ∨ ¬ ctx.ClimbsOutOfRootTree sourceDir) {l : Location}
    (hl : (ctx.locate files path sourceDir).result = .ok l) (hroot : l.isRoot = true)
    (cwd : List String) : ctx.InRootTree cwd l.dir := by
  obtain ⟨hvalid, htarget⟩ := target_of_locate hl
  cases hlocal : ImportPath.isLocal path with
  | true => exact inRootTree_of_isLocal hlocal htarget hroot cwd
  | false =>
    rw [hlocal] at h
    have hstays : ¬ ctx.ClimbsOutOfRootTree sourceDir := h.resolve_left Bool.false_ne_true
    exact inRootTree_of_mem_candidates hvalid hlocal hstays
      (mem_candidates_of_target hlocal htarget) hroot cwd

end GoContext

/-! ## 3. Routing and caching -/

variable {σ S : Type}

namespace Import

variable {tc : Toolchain σ S} {i : Import σ S} {cache : Cache}

/-- What another strategy than the request's own is called for is located as a root package. -/
theorem exists_root_of_called {strategy : S} {q : ImportQuery} {o : Outcome}
    (h : .called strategy q o ∈ (i.made tc cache).events) (hne : strategy ≠ i.importer.own) :
    ∃ location, (i.importer.build i.query.path i.query.sourceDir).result = .ok location ∧
      location.isRoot = true := by
  obtain ⟨location, hlocation, hstrategy⟩ := (calls_of_mem h).exists_location
  refine ⟨location, hlocation, ?_⟩
  by_contra hroot
  rw [Importer.strategyFor, if_neg hroot] at hstrategy
  exact hne hstrategy

/-- What an import leaves in a cache that did not have it was located as a root package. -/
theorem exists_root_of_mem_made {entry : CacheKey × Package}
    (h : entry ∈ (i.made tc cache).cache.entries) (hnew : entry ∉ cache.entries) :
    ∃ location, (i.importer.build i.query.path i.query.sourceDir).result = .ok location ∧
      location.isRoot = true := by
  rw [made] at h
  by_cases hempty : i.query.path = ""
  · rw [Importer.importFrom_of_empty tc _ _ _ _ hempty] at h
    exact absurd h hnew
  cases hget : cache.get? (.of i.query.path i.query.sourceDir) with
  | some p =>
    rw [Importer.importFrom_of_hit tc _ _ _ _ hempty hget] at h
    exact absurd h hnew
  | none =>
    rw [Importer.importFrom_of_miss tc _ _ _ _ hempty hget] at h
    cases hkeep : (i.importer.resolve tc i.query i.host).keep with
    | none =>
      rw [hkeep] at h
      exact absurd h hnew
    | some p =>
      obtain ⟨-, ⟨location, hlocation, hroot, -⟩, -⟩ :=
        (Importer.resolve_keep_eq_some_iff tc _ _ _).mp hkeep
      exact ⟨location, hlocation, hroot⟩

end Import

/-- **Root packages are sound**, unless an importing directory climbs out of the toolchain's tree.
What a build context marks as a root package, what an import calls another strategy than the
request's own for, and what it adds to the cache is inside the tree. -/
theorem GoContext.located_inRootTree (ctx : GoContext) (files : FileTree) (cwd : List String)
    (path : String) (sourceDir : Path)
    (h : ImportPath.isLocal path = true ∨ ¬ ctx.ClimbsOutOfRootTree sourceDir) :
    (∀ l, (ctx.locate files path sourceDir).result = .ok l → l.isRoot = true →
      ctx.InRootTree cwd l.dir) ∧
    ∀ (σ S : Type) (tc : Toolchain σ S) (i : Import σ S) (cache : Cache),
      i.importer.build = ctx.locate files → i.query.path = path → i.query.sourceDir = sourceDir →
      ((∃ strategy q o, .called strategy q o ∈ (i.made tc cache).events ∧
          strategy ≠ i.importer.own) ∨
        ∃ entry ∈ (i.made tc cache).cache.entries, entry ∉ cache.entries) →
      ∃ l, (ctx.locate files path sourceDir).result = .ok l ∧ l.isRoot = true ∧
        ctx.InRootTree cwd l.dir := by
  have hlocated : ∀ l, (ctx.locate files path sourceDir).result = .ok l → l.isRoot = true →
      ctx.InRootTree cwd l.dir := fun l hl hroot => inRootTree_of_locate h hl hroot cwd
  refine ⟨hlocated, ?_⟩
  rintro σ S tc i cache hbuild rfl rfl hused
  obtain ⟨l, hl, hroot⟩ : ∃ l, (i.importer.build i.query.path i.query.sourceDir).result = .ok l ∧
      l.isRoot = true := by
    rcases hused with ⟨strategy, q, o, hcalled, hne⟩ | ⟨entry, hentry, hnew⟩
    · exact Import.exists_root_of_called hcalled hne
    · exact Import.exists_root_of_mem_made hentry hnew
  rw [hbuild] at hl
  exact ⟨l, hl, hroot, hlocated l hl hroot⟩

namespace GoContext

/-- A toolchain beside the current directory, a package that it vendors, and another package of that
name which a program beside the toolchain vendors. -/
def besideToolchain : GoContext × FileTree :=
  ({ goroot := some ⟨"../go"⟩ },
    { cwd := ["ws"]
      root := .dir
        [("ws", .dir []),
          ("go", .dir [("src", .dir [("net", .dir [("http", .dir []),
            ("vendor", .dir [("dep", .dir [("dep.go", .file (.text "package dep\n"))])])])])]),
          ("app", .dir
            [("vendor", .dir [("dep", .dir [("dep.go", .file (.text "package dep\n"))])])])] })

/-- An import from inside the toolchain leads to the package vendored there, for which the shared
strategy is called. -/
theorem located_inRootTree_vendored :
    let i : Import (Capabilities × Nat) (StrategyKind × Nat) :=
      { importer := { root := (.default, 0), own := (.default, 1),
                      build := besideToolchain.1.locate besideToolchain.2, debug := false }
        query := ⟨"dep", ⟨"../go/src/net//http"⟩, {}⟩
        host := ({}, 2) }
    (i.importer.build i.query.path i.query.sourceDir).result =
        .ok ⟨"net/vendor/dep", ⟨"../go/src/net/vendor/dep"⟩, true⟩ ∧
      (∃ o, .called i.importer.root i.query o ∈ (i.made .numbered .empty).events) ∧
      besideToolchain.1.InRootTree ["ws"] ⟨"../go/src/net/vendor/dep"⟩ := by
  intro i
  have hstays : ¬ besideToolchain.1.ClimbsOutOfRootTree ⟨"../go/src/net//http"⟩ := by
    rintro ⟨goroot, below, hgoroot, hcomponents, hclimbs⟩
    have hbelow : Path.components ⟨"../go/src/net//http"⟩ =
        (Path.child ⟨"../go"⟩ "src").components ++ [.name "net", .name "http"] := by decide +kernel
    rw [← Option.some_inj.mp hgoroot, hbelow, List.append_cancel_left_eq] at hcomponents
    rw [← hcomponents] at hclimbs
    cases hclimbs
  have hresult : (i.importer.build i.query.path i.query.sourceDir).result =
      .ok ⟨"net/vendor/dep", ⟨"../go/src/net/vendor/dep"⟩, true⟩ := by decide +kernel
  have hcalled : ∃ o, .called i.importer.root i.query o ∈ (i.made .numbered .empty).events := by
    rw [Import.made, Importer.importFrom_of_miss .numbered _ _ _ _ (by decide) rfl]
    exact ⟨_, (Importer.resolve_of_locatesRoot .numbered _ _ _ (by decide)
      ⟨_, hresult, rfl, by decide⟩).2⟩
  obtain ⟨o, ho⟩ := hcalled
  obtain ⟨l, hl, -, hinside⟩ := (located_inRootTree besideToolchain.1 besideToolchain.2 ["ws"]
    "dep" ⟨"../go/src/net//http"⟩ (.inr hstays)).2 _ _ .numbered i .empty rfl rfl rfl
    (.inl ⟨_, _, o, ho, by decide⟩)
  have hl' : l = ⟨"net/vendor/dep", ⟨"../go/src/net/vendor/dep"⟩, true⟩ :=
    Except.ok.inj (hl.symm.trans hresult)
  rw [hl'] at hinside
  exact ⟨hresult, ⟨o, ho⟩, hinside⟩

/-- **A root package may be outside the toolchain's tree.** -/
theorem not_inRootTree_of_climbing :
    (besideToolchain.1.locate besideToolchain.2 "dep" ⟨"../go/src/../../app"⟩).result =
        .ok ⟨"app/vendor/dep", ⟨"../go/src/../../app/vendor/dep"⟩, true⟩ ∧
      Path.resolved ["ws"] ⟨"../go/src/../../app/vendor/dep"⟩ = ["app", "vendor", "dep"] ∧
      ¬ besideToolchain.1.InRootTree ["ws"] ⟨"../go/src/../../app/vendor/dep"⟩ := by
  refine ⟨by decide +kernel, by decide +kernel, ?_⟩
  rintro ⟨goroot, hgoroot, hinside⟩
  rw [← Option.some_inj.mp hgoroot] at hinside
  revert hinside
  decide +kernel

end GoContext

end GoResolver
