import GoResolver.GoContext.Locate
import GoResolver.Proofs.Path.Resolution

/-!
# Where the candidates of an import are

The candidates of an import are found by cutting and joining paths.  Here their directories are
computed as lists of components, once for each kind of candidate, so that no later proof looks into
a path again.

* `components_child_src`: a source tree is the `src` directory of its root.
* `components_child_of_valid`: below a directory, an import path that is valid and not local names
  the directory with the path's elements behind it.
* `enclosing?_eq_some`, `enclosing?_eq_none_iff`: which source tree contains a directory.
* `components_vendored`, `importPath_vendored`: where a vendored package of a tree's subdirectory
  is, and what it is called.
-/

namespace GoResolver

/-! ## 1. Import paths below a directory -/

namespace ImportPath

/-- An element that is not bad names an entry of a directory. -/
theorem component?_of_not_isBadElement {e : String} (h : isBadElement e = false) :
    Path.component? e = some (.name e) := by
  rw [isBadElement, Bool.or_eq_false_iff, Bool.or_eq_false_iff] at h
  obtain ⟨⟨hempty, hhere⟩, hup⟩ := h
  rw [Path.component?, Path.isTrivial, hempty, hhere, Bool.or_self, if_neg Bool.false_ne_true,
    if_neg (by simpa using hup)]

variable {path : String}

/-- **What makes an import path valid.** -/
theorem validate_eq_ok_iff : validate path = .ok () ↔
    path ≠ "" ∧ path ≠ "C" ∧ (∀ c ∈ path.toList, isForbidden c = false) ∧
      path.toList.head? ≠ some '/' ∧
      (isLocal path = false → ∀ e ∈ elements path, isBadElement e = false) := by
  have hflaw : validate path = .ok () ↔ flaw? path = none := by
    rw [validate]
    cases flaw? path <;> simp
  rw [hflaw, flaw?]
  by_cases hempty : path = ""
  · simp [hempty]
  rw [if_neg hempty, and_iff_right hempty]
  by_cases hpseudo : path = "C"
  · simp [hpseudo]
  rw [if_neg hpseudo, and_iff_right hpseudo]
  cases hfind : path.toList.find? isForbidden with
  | some c =>
    have hc := List.find?_some hfind
    have hmem := List.mem_of_find?_eq_some hfind
    refine iff_of_false (Option.some_ne_none _) fun h => ?_
    rw [h.1 c hmem] at hc
    cases hc
  | none =>
    have hchars : ∀ c ∈ path.toList, isForbidden c = false := by simpa using hfind
    dsimp only
    rw [and_iff_right hchars]
    by_cases hslash : path.toList.head? = some '/'
    · simp [hslash]
    rw [if_neg hslash, and_iff_right hslash]
    cases isLocal path with
    | true => simp
    | false => simp

/-- The elements of a valid path that is not local all name entries. -/
theorem not_isBadElement_of_valid (hvalid : validate path = .ok ())
    (hlocal : isLocal path = false) : ∀ e ∈ elements path, isBadElement e = false :=
  (validate_eq_ok_iff.mp hvalid).2.2.2.2 hlocal

/-- Read as a path, a valid path that is not local is a list of names. -/
theorem lead_and_components_of_valid (hvalid : validate path = .ok ())
    (hlocal : isLocal path = false) :
    Path.lead ⟨path⟩ = none ∧ Path.components ⟨path⟩ = (elements path).map .name := by
  have hgood := not_isBadElement_of_valid hvalid hlocal
  have hsegs : Path.segments ⟨path⟩ = elements path := rfl
  have hlead : Path.lead ⟨path⟩ = none := by
    rw [Path.lead]
    rcases Path.text_cases ⟨path⟩ with ⟨-, h⟩ | ⟨-, rest, h⟩ | ⟨habs, -, s, rest, h, -⟩
    · have hbad := hgood "" (by rw [← hsegs, h]; exact List.mem_cons_self)
      cases hbad
    · have hbad := hgood "" (by rw [← hsegs, h]; exact List.mem_cons_self)
      cases hbad
    · rw [habs, if_neg Bool.false_ne_true, h, List.head?_cons, ite_eq_right_iff]
      intro hhere
      have hbad := hgood s (by rw [← hsegs, h]; exact List.mem_cons_self)
      rw [Option.some_inj.mp hhere] at hbad
      cases hbad
  refine ⟨hlead, ?_⟩
  rw [Path.components_eq_steps hlead, Path.steps, hsegs]
  have hmap : ∀ es : List String, (∀ e ∈ es, isBadElement e = false) →
      es.filterMap Path.component? = es.map .name := by
    intro es hes
    rw [← List.filterMap_eq_map]
    exact List.filterMap_congr fun e he => component?_of_not_isBadElement (hes e he)
  exact hmap _ hgood

/-- **An import path is found below a directory by its elements.** -/
theorem components_child_of_valid (hvalid : validate path = .ok ()) (hlocal : isLocal path = false)
    (dir : Path) : (dir.child path).components = dir.components ++ (elements path).map .name := by
  obtain ⟨hlead, hcomponents⟩ := lead_and_components_of_valid hvalid hlocal
  rw [Path.child, Path.components_join_of_lead_eq_none dir hlead, hcomponents]

end ImportPath

namespace GoContext

/-! ## 2. Source trees -/

/-- A source tree is the `src` directory of its root. -/
theorem components_child_src (root : Path) :
    (root.child "src").components = root.components ++ [.name "src"] :=
  Path.components_join_of_lead_eq_none root (by decide)

theorem components_child_vendor (dir : Path) :
    (dir.child "vendor").components = dir.components ++ [.name "vendor"] :=
  Path.components_join_of_lead_eq_none dir (by decide)

variable {ctx : GoContext}

/-- A source tree of a context is the toolchain's own or one of a workspace. -/
theorem mem_trees {tree : SourceTree} (h : tree ∈ ctx.trees) :
    (∃ root, ctx.goroot = some root ∧ tree = ⟨root.child "src", true⟩) ∨
    (∃ root ∈ ctx.gopath, tree = ⟨root.child "src", false⟩) := by
  rcases List.mem_append.mp h with h | h
  · rw [rootTree?, Option.mem_toList, Option.map_eq_some_iff] at h
    obtain ⟨root, hroot, rfl⟩ := h
    exact .inl ⟨root, hroot, rfl⟩
  · rw [workspaceTrees, List.mem_map] at h
    obtain ⟨root, hroot, rfl⟩ := h
    exact .inr ⟨root, List.mem_of_mem_filter hroot, rfl⟩

/-- Every source tree ends in a name. -/
theorem exists_components_of_mem_trees {tree : SourceTree} (h : tree ∈ ctx.trees) :
    ∃ above, tree.dir.components = above ++ [.name "src"] := by
  rcases mem_trees h with ⟨root, -, rfl⟩ | ⟨root, -, rfl⟩
  · exact ⟨_, components_child_src root⟩
  · exact ⟨_, components_child_src root⟩

theorem components_ne_nil_of_mem_trees {tree : SourceTree} (h : tree ∈ ctx.trees) :
    tree.dir.components ≠ [] := by
  obtain ⟨above, habove⟩ := exists_components_of_mem_trees h
  rw [habove]
  exact List.append_ne_nil_of_right_ne_nil _ (List.cons_ne_nil _ _)

/-- The first source tree that contains a directory, and what is left of the directory below it. -/
theorem enclosing?_eq_some {dir rest : Path} {tree : SourceTree}
    (h : ctx.enclosing? dir = some (tree, rest)) :
    tree ∈ ctx.trees ∧ rest.lead = none ∧
      dir.components = tree.dir.components ++ rest.components ∧
      ctx.trees.find? (fun t => t.dir.components.isPrefixOf dir.components) = some tree := by
  rw [enclosing?, List.findSome?_eq_some_iff] at h
  obtain ⟨before, t, after, htrees, ht, hbefore⟩ := h
  rw [Option.map_eq_some_iff] at ht
  obtain ⟨rest', hrest, heq⟩ := ht
  obtain ⟨rfl, rfl⟩ := Prod.mk.inj heq
  have hmem : t ∈ ctx.trees := by rw [htrees]; simp
  obtain ⟨hlead, hcomponents⟩ :=
    Path.relativeTo?_eq_some (components_ne_nil_of_mem_trees hmem) hrest
  refine ⟨hmem, hlead, hcomponents, ?_⟩
  rw [List.find?_eq_some_iff_append]
  refine ⟨?_, before, after, htrees, fun k hk => ?_⟩
  · rw [List.isPrefixOf_iff_prefix, hcomponents]
    exact List.prefix_append _ _
  · have hnone := Option.map_eq_none_iff.mp (hbefore k hk)
    rw [Path.relativeTo?_eq_none_iff, ← List.isPrefixOf_iff_prefix, Bool.not_eq_true] at hnone
    rw [hnone, Bool.not_false]

theorem enclosing?_eq_none_iff {dir : Path} :
    ctx.enclosing? dir = none ↔
      ctx.trees.find? (fun t => t.dir.components.isPrefixOf dir.components) = none := by
  rw [enclosing?, List.findSome?_eq_none_iff, List.find?_eq_none]
  simp only [Option.map_eq_none_iff, Path.relativeTo?_eq_none_iff, List.isPrefixOf_iff_prefix]

/-! ## 3. Vendored packages -/

variable {path : String}

/-- The directory of a vendored package. -/
theorem components_vendored (hvalid : ImportPath.validate path = .ok ())
    (hlocal : ImportPath.isLocal path = false) (tree : SourceTree) {sub : Path}
    (hsub : sub.lead = none) :
    (vendored tree sub path).dir.components =
      tree.dir.components ++ sub.components ++
        .name "vendor" :: (ImportPath.elements path).map .name := by
  rw [vendored, ImportPath.components_child_of_valid hvalid hlocal, components_child_vendor,
    Path.components_join_of_lead_eq_none _ hsub, List.append_assoc _ [_] _, List.singleton_append]

/-- A vendored package is found from where its subdirectory leads. -/
theorem resolved_vendored (hvalid : ImportPath.validate path = .ok ())
    (hlocal : ImportPath.isLocal path = false) (tree : SourceTree) {sub : Path}
    (hsub : sub.lead = none) (cwd : List String) :
    (vendored tree sub path).dir.resolved cwd =
      sub.components.foldl Path.enter (tree.dir.resolved cwd) ++
        "vendor" :: ImportPath.elements path := by
  rw [Path.resolved, components_vendored hvalid hlocal tree hsub, List.foldl_append,
    List.foldl_append]
  exact Path.foldl_enter_names _ ("vendor" :: ImportPath.elements path)

/-- Without a lead and without `..`, a path is written as the names that it consists of. -/
theorem names_eq_segments {sub : Path} (hsub : sub.lead = none) (hup : .up ∉ sub.components) :
    sub.names = sub.components.map Component.segment := by
  have hname : ∀ c ∈ sub.components, ∃ s, c = .name s := by
    intro c hc
    rw [Path.components_eq_steps hsub] at hc hup
    rcases (Path.isStep_of_mem_steps hc).eq_up_or_name with rfl | h
    · exact absurd hc hup
    · exact h
  rw [Path.names, ← List.filterMap_eq_map]
  refine List.filterMap_congr fun c hc => ?_
  obtain ⟨s, rfl⟩ := hname c hc
  rfl

/-- A path with components is not written as the empty text. -/
theorem slashed_segments_ne_empty {sub : Path} (hsub : sub.lead = none)
    (hne : sub.components ≠ []) :
    Path.slashed (sub.components.map Component.segment) ≠ "" := by
  rw [Path.components_eq_steps hsub] at hne ⊢
  intro hempty
  have hread := Path.components_slashed_segments fun c hc => Path.isStep_of_mem_steps hc (p := sub)
  rw [hempty] at hread
  exact hne hread.symm

/-- The canonical path of a vendored package. -/
theorem importPath_vendored (tree : SourceTree) {sub : Path} (hsub : sub.lead = none)
    (hup : .up ∉ sub.components) :
    (vendored tree sub path).importPath =
      Path.slashed (sub.components.map Component.segment ++ ["vendor", path]) := by
  have hbehind : Path.slashed ["vendor", path] = "vendor/" ++ path := by
    rw [Path.slashed, String.intercalate_cons_cons, String.intercalate_singleton]
    rfl
  rw [vendored, Path.slashNames, names_eq_segments hsub hup]
  dsimp only
  by_cases hempty : sub.components = []
  · rw [hempty, List.map_nil, List.nil_append, hbehind]
    exact if_pos rfl
  · have hne : sub.components.map Component.segment ≠ [] := by simpa using hempty
    rw [if_neg (slashed_segments_ne_empty hsub hempty), Path.slashed_append hne (by simp), hbehind,
      String.append_assoc, String.append_assoc]
    rfl

end GoContext

end GoResolver
