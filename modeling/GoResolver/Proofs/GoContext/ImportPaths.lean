import GoResolver.Proofs.FileTree.Lexical
import GoResolver.Proofs.GoContext.Places

/-!
# Import paths and the directories they name

An import path is checked as a text: by its characters, and by its elements between slashes.  Then
it is joined to the directory of a source tree, and from there on it is a path, with components of
which some do not count and others lead upwards.  This file says that nothing gets lost or added on
the way.

* `isTreePath_iff`: the import paths that are valid and not local, described without a check that
  looks for flaws in a certain order.
* `resolved_child_of_valid`, `slashNames_relativeTo?_child`: below a directory, such a path leads to
  its elements and nowhere else, and it can be read off again.

Both come down to one fact: no element is trivial or `..`, so every element is a component, and
every component a name (`components_child_of_valid`).  `treePaths_name_directories` is the sum.
-/

namespace GoResolver.ImportPath

variable {path : String}

/-! ## 1. Which import paths are looked up in trees -/

/-- The control characters. -/
def IsControl (c : Char) : Prop := c.toNat < 0x20 ∨ (0x7f ≤ c.toNat ∧ c.toNat < 0xa0)

/-- Whether an import path may be looked up in source trees. -/
structure IsTreePath (path : String) : Prop where
  ne_empty : path ≠ ""
  ne_pseudoPackage : path ≠ "C"
  chars : ∀ c ∈ path.toList, c ≠ '\\' ∧ ¬ IsControl c
  elements : ∀ e ∈ elements path, e ≠ "" ∧ e ≠ "." ∧ e ≠ ".."

theorem isForbidden_eq_false_iff {c : Char} :
    isForbidden c = false ↔ c ≠ '\\' ∧ ¬ IsControl c := by
  rw [isForbidden, IsControl, Bool.or_eq_false_iff, Bool.or_eq_false_iff, Bool.and_eq_false_iff,
    beq_eq_false_iff_ne, decide_eq_false_iff_not, decide_eq_false_iff_not, decide_eq_false_iff_not]
  tauto

theorem isBadElement_eq_false_iff {e : String} :
    isBadElement e = false ↔ e ≠ "" ∧ e ≠ "." ∧ e ≠ ".." := by
  rw [isBadElement, Bool.or_eq_false_iff, Bool.or_eq_false_iff, beq_eq_false_iff_ne,
    beq_eq_false_iff_ne, beq_eq_false_iff_ne, and_assoc]

/-- What stands before a slash is an element, if it has no slash itself. -/
theorem mem_elements_of_slash {front : String} {rest : List Char}
    (hsegs : Path.segments ⟨front⟩ = [front])
    (hpath : path.toList = (front ++ "/").toList ++ rest) : front ∈ elements path := by
  have htext : path = front ++ "/" ++ String.ofList rest := by
    rw [← String.toList_inj, hpath]
    simp
  have helements : elements path = Path.segments ⟨path⟩ := rfl
  rw [helements, htext, Path.segments_append_slash, hsegs]
  exact List.mem_append_left _ (List.mem_singleton_self _)

/-- A local import path starts with one of the two elements that name no entry. -/
theorem exists_mem_elements_of_isLocal (h : isLocal path = true) :
    ∃ e ∈ elements path, e = "." ∨ e = ".." := by
  simp only [isLocal, Bool.or_eq_true, beq_iff_eq, Option.isSome_iff_exists,
    Text.after?_eq_some_iff] at h
  rcases h with ((rfl | rfl) | ⟨rest, hrest⟩) | ⟨rest, hrest⟩
  · exact ⟨".", by decide, .inl rfl⟩
  · exact ⟨"..", by decide, .inr rfl⟩
  · exact ⟨".", mem_elements_of_slash (by decide) hrest, .inl rfl⟩
  · exact ⟨"..", mem_elements_of_slash (by decide) hrest, .inr rfl⟩

/-- **The import paths that are valid and not local.** -/
theorem isTreePath_iff : IsTreePath path ↔ isLocal path = false ∧ validate path = .ok () := by
  rw [validate_eq_ok_iff]
  constructor
  · intro h
    have hlocal : isLocal path = false := by
      rw [← Bool.not_eq_true]
      intro hlocal
      obtain ⟨e, he, rfl | rfl⟩ := exists_mem_elements_of_isLocal hlocal
      · exact (h.elements "." he).2.1 rfl
      · exact (h.elements ".." he).2.2 rfl
    refine ⟨hlocal, h.ne_empty, h.ne_pseudoPackage,
      fun c hc => isForbidden_eq_false_iff.mpr (h.chars c hc), fun hslash => ?_,
      fun _ e he => isBadElement_eq_false_iff.mpr (h.elements e he)⟩
    obtain ⟨rest, hrest⟩ := List.head?_eq_some_iff.mp hslash
    exact (h.elements "" (mem_elements_of_slash (by decide) hrest)).1 rfl
  · rintro ⟨hlocal, hempty, hpseudo, hchars, -, helements⟩
    exact ⟨hempty, hpseudo, fun c hc => isForbidden_eq_false_iff.mp (hchars c hc),
      fun e he => isBadElement_eq_false_iff.mp (helements hlocal e he)⟩

/-! ## 2. Directories -/

/-- An import path is its elements with slashes between them. -/
theorem slashed_elements (path : String) : Path.slashed (elements path) = path :=
  Path.slashed_segments ⟨path⟩

theorem elements_injective : Function.Injective elements := by
  intro path other h
  rw [← slashed_elements path, h, slashed_elements]

/-- Below a directory, a valid path that is not local leads to its elements. -/
theorem resolved_child_of_valid (hvalid : validate path = .ok ()) (hlocal : isLocal path = false)
    (dir : Path) (cwd : List String) :
    (dir.child path).resolved cwd = dir.resolved cwd ++ elements path := by
  rw [Path.resolved, components_child_of_valid hvalid hlocal, List.foldl_append]
  exact Path.foldl_enter_names _ (elements path)

/-- **Relative to the directory, it is the import path again.** -/
theorem slashNames_relativeTo?_child (hvalid : validate path = .ok ())
    (hlocal : isLocal path = false) (dir : Path) :
    ((dir.child path).relativeTo? dir).map Path.slashNames = some path := by
  have hchild := components_child_of_valid hvalid hlocal dir
  cases hrest : (dir.child path).relativeTo? dir with
  | none =>
    rw [Path.relativeTo?_eq_none_iff, hchild] at hrest
    exact absurd (List.prefix_append _ _) hrest
  | some rest =>
    have hcomponents : rest.components = (elements path).map .name := by
      by_cases hdir : dir.components = []
      · -- the empty directory has no component whose end could be found in the path
        obtain ⟨hlead, hpath⟩ := lead_and_components_of_valid hvalid hlocal
        have hjoin : dir.child path = ⟨path⟩ := Path.join_of_text_eq_empty
          (Path.text_eq_empty_iff.mpr hdir) (Path.isAbsolute_of_lead_eq_none hlead)
        have hall : [].isPrefixOf (Path.components ⟨path⟩) = true := rfl
        rw [Path.relativeTo?, hdir, hjoin, if_pos hall, Option.some_inj] at hrest
        rw [← hrest, List.length_nil,
          Path.components_drop_zero hlead (validate_eq_ok_iff.mp hvalid).1, hpath]
      · obtain ⟨-, hbehind⟩ := Path.relativeTo?_eq_some hdir hrest
        rw [hchild] at hbehind
        exact (List.append_cancel_left hbehind).symm
    rw [Option.map_some, Path.slashNames_of_components hcomponents, slashed_elements]

/-- **Import paths name directories safely and faithfully.**  The valid ones that are not local are
those of which every element names an entry, without the pseudo-package and certain characters.
Below any directory, such a path has the directory's components and behind them its elements; so it
leads to a place inside the directory, also on a disk, to which no other such path leads; and
relative to the directory it is the import path again. -/
theorem treePaths_name_directories :
    (∀ path, isLocal path = false ∧ validate path = .ok () ↔ IsTreePath path) ∧
    ∀ path, isLocal path = false → validate path = .ok () → ∀ dir : Path,
      (dir.child path).components = dir.components ++ (elements path).map .name ∧
      (∀ cwd, (dir.child path).resolved cwd = dir.resolved cwd ++ elements path) ∧
      (∀ (files : FileTree) place, files.place (dir.child path) = .ok place →
        place = dir.resolved files.cwd ++ elements path) ∧
      (∀ other, isLocal other = false → validate other = .ok () → path ≠ other →
        ¬ (dir.child path).Same (dir.child other) ∧
        ∀ cwd, (dir.child path).resolved cwd ≠ (dir.child other).resolved cwd) ∧
      ((dir.child path).relativeTo? dir).map Path.slashNames = some path := by
  refine ⟨fun path => isTreePath_iff.symm, fun path hlocal hvalid dir => ?_⟩
  have hresolved := resolved_child_of_valid hvalid hlocal dir
  refine ⟨components_child_of_valid hvalid hlocal dir, hresolved, fun files place hplace => ?_,
    fun other hlocal' hvalid' hne => ?_, slashNames_relativeTo?_child hvalid hlocal dir⟩
  · rw [FileTree.place_eq_resolved hplace, hresolved]
  · have hapart : ∀ cwd, (dir.child path).resolved cwd ≠ (dir.child other).resolved cwd := by
      intro cwd h
      rw [hresolved, resolved_child_of_valid hvalid' hlocal', List.append_right_inj] at h
      exact hne (elements_injective h)
    refine ⟨fun hsame => hapart [] ?_, hapart⟩
    rw [Path.Same] at hsame
    rw [Path.resolved, Path.resolved, hsame]

/-- Dots that are no `..`, a space, letters and a dot leader of other scripts, and the
pseudo-package's name as one element of several, below a tree that is reached through `..`. -/
theorem treePaths_name_directories_with_dots :
    let path := "example.com/.../..x y/ünï\u2025/C"
    let dir : Path := ⟨"../go//src/."⟩
    isLocal path = false ∧ validate path = .ok () ∧
      (dir.child path).components = [.up, .name "go", .name "src", .name "example.com",
        .name "...", .name "..x y", .name "ünï\u2025", .name "C"] ∧
      dir.resolved ["ws", "app"] = ["ws", "go", "src"] ∧
      (dir.child path).resolved ["ws", "app"] = ["ws", "go", "src"] ++ elements path ∧
      ¬ (dir.child path).Same (dir.child "example.com/.../..x y/ünï../C") ∧
      ((dir.child path).relativeTo? dir).map Path.slashNames = some path := by
  intro path dir
  have hlocal : isLocal path = false := by decide
  have hvalid : validate path = .ok () := by decide
  have hdir : dir.resolved ["ws", "app"] = ["ws", "go", "src"] := by decide
  obtain ⟨hcomponents, hresolved, -, hapart, hback⟩ :=
    treePaths_name_directories.2 path hlocal hvalid dir
  exact ⟨hlocal, hvalid, hcomponents.trans (by decide), hdir, hdir ▸ hresolved ["ws", "app"],
    (hapart "example.com/.../..x y/ünï../C" (by decide) (by decide) (by decide)).1, hback⟩

end GoResolver.ImportPath
