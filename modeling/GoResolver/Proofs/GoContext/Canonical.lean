import GoResolver.Proofs.GoContext.ImportPaths
import GoResolver.Proofs.GoContext.Local
import GoResolver.Proofs.GoContext.Spelling
import GoResolver.Proofs.Path.NormalForm

/-!
# Local and canonical import paths

A package below a source tree can be imported in two ways.  A local import path is written behind
the importing directory; the directory that is meant is normalized, and what it has behind the tree
is the package's canonical path.  With the canonical path the package is looked up in the trees,
from any directory.  `locate_local_agrees` says that both name, place and classify the package
alike.

* `LeadsBelow`: a path from the root leads below a source tree, and this is the first tree that
  contains it.  Trees may lie in one another.
* `LeadsBelow.localLocation_eq`: the local import path leads to what is left behind that tree.
* `LeadsBelow.find?_candidates_eq`: the canonical path leads to the same directory, when no earlier
  tree has a directory of that name.

## Where the ways part

The local way looks at files by their normalized paths, the other one keeps the spelling of the
tree.  So a tree that is written with many slashes can have files whose paths are too long for the
system in one of the spellings only; and from a directory whose text passes through a tree, although
it is outside of it, the canonical path may lead into a `vendor` directory
(`not_agree_of_slashes_or_detour`).
-/

namespace GoResolver

/-! ## 1. Names of packages -/

/-- Names with slashes between them are no local import path. -/
theorem ImportPath.isLocal_slashed {names : List String} (hne : names ≠ [])
    (h : ∀ s ∈ names, Path.IsStep (.name s)) : isLocal (Path.slashed names) = false := by
  rw [← Bool.not_eq_true]
  intro hlocal
  obtain ⟨e, he, hdots⟩ := exists_mem_elements_of_isLocal hlocal
  have helements : elements (Path.slashed names) = names :=
    Path.segments_slashed hne fun s hs => (h s hs).2
  rw [helements] at he
  rcases hdots with rfl | rfl
  · exact absurd (h "." he) (by decide)
  · exact absurd (h ".." he) (by decide)

namespace GoContext

/-! ## 2. Paths that lead below a source tree -/

/-- The source trees are written from the root and without `..`. -/
def TreesArePlain (ctx : GoContext) : Prop :=
  ∀ tree ∈ ctx.trees, tree.dir.isAbsolute = true ∧ .up ∉ tree.dir.components

instance (ctx : GoContext) : Decidable ctx.TreesArePlain :=
  inferInstanceAs (Decidable (∀ tree ∈ ctx.trees, _ ∧ _))

/-- A path from the root leads, without climbing above it, to a place below a source tree, and this
is the first source tree that contains the place. -/
structure LeadsBelow (ctx : GoContext) (cwd : List String) (p : Path) (earlier : List SourceTree)
    (tree : SourceTree) (below : List String) : Prop where
  isAbsolute : p.isAbsolute = true
  height_eq_zero : p.height = 0
  trees_eq : ∃ later, ctx.trees = earlier ++ tree :: later
  not_earlier : ∀ t ∈ earlier, ¬ t.dir.resolved cwd <+: p.resolved cwd
  resolved_eq : p.resolved cwd = tree.dir.resolved cwd ++ below
  below_ne_nil : below ≠ []

variable {ctx : GoContext} {files : FileTree} {cwd : List String} {p : Path}
  {earlier : List SourceTree} {tree : SourceTree} {below : List String}

theorem components_of_mem_trees (hplain : ctx.TreesArePlain) (cwd : List String) {t : SourceTree}
    (ht : t ∈ ctx.trees) : t.dir.components = .root :: (t.dir.resolved cwd).map .name := by
  obtain ⟨names, hcomponents, hresolved⟩ :=
    Path.exists_names_of_isAbsolute (hplain t ht).1 (hplain t ht).2
  rw [hresolved, hcomponents]

namespace LeadsBelow

theorem mem_trees (h : ctx.LeadsBelow cwd p earlier tree below) : tree ∈ ctx.trees := by
  obtain ⟨later, htrees⟩ := h.trees_eq
  rw [htrees]
  simp

theorem isStep_of_mem (h : ctx.LeadsBelow cwd p earlier tree below) :
    ∀ s ∈ tree.dir.resolved cwd ++ below, Path.IsStep (.name s) := by
  rw [← h.resolved_eq]
  exact fun s hs => Path.isStep_of_mem_resolved h.isAbsolute h.height_eq_zero hs

theorem isStep_of_mem_below (h : ctx.LeadsBelow cwd p earlier tree below) :
    ∀ s ∈ below, Path.IsStep (.name s) :=
  fun s hs => h.isStep_of_mem s (List.mem_append_right _ hs)

theorem components_normalize (h : ctx.LeadsBelow cwd p earlier tree below) :
    p.normalize.components = .root :: (tree.dir.resolved cwd ++ below).map .name := by
  rw [Path.components_normalize_of_height_eq_zero h.isAbsolute h.height_eq_zero cwd, h.resolved_eq]

/-- The normalized path and the canonical path below the tree are one path. -/
theorem same_child (hplain : ctx.TreesArePlain) (h : ctx.LeadsBelow cwd p earlier tree below) :
    p.normalize.Same (tree.dir.child (Path.slashed below)) := by
  rw [Path.Same, Path.components_child_slashed h.isStep_of_mem_below,
    components_of_mem_trees hplain cwd h.mem_trees, h.components_normalize, List.map_append,
    List.cons_append]

/-- **A source tree contains the normalized path when it contains the place.** -/
theorem prefix_normalize_iff (hplain : ctx.TreesArePlain)
    (h : ctx.LeadsBelow cwd p earlier tree below) {t : SourceTree} (ht : t ∈ ctx.trees) :
    t.dir.components <+: p.normalize.components ↔ t.dir.resolved cwd <+: p.resolved cwd := by
  have hname : Function.Injective Component.name := fun _ _ => Component.name.inj
  rw [components_of_mem_trees hplain cwd ht, h.components_normalize, List.cons_prefix_cons,
    List.prefix_map_iff_of_injective hname, h.resolved_eq]
  exact and_iff_right rfl

theorem find?_trees (hplain : ctx.TreesArePlain) (h : ctx.LeadsBelow cwd p earlier tree below) :
    ctx.trees.find? (fun t => t.dir.components.isPrefixOf p.normalize.components) = some tree := by
  obtain ⟨later, htrees⟩ := h.trees_eq
  rw [List.find?_eq_some_iff_append]
  refine ⟨?_, earlier, later, htrees, fun t ht => ?_⟩
  · rw [List.isPrefixOf_iff_prefix, h.prefix_normalize_iff hplain h.mem_trees, h.resolved_eq]
    exact List.prefix_append _ _
  · have hmem : t ∈ ctx.trees := by
      rw [htrees]
      exact List.mem_append_left _ ht
    rw [Bool.not_eq_true', ← Bool.not_eq_true, List.isPrefixOf_iff_prefix,
      h.prefix_normalize_iff hplain hmem]
    exact h.not_earlier t ht

/-- **The local way**: what is left behind the tree is the canonical path. -/
theorem localLocation_eq (hplain : ctx.TreesArePlain)
    (h : ctx.LeadsBelow cwd p earlier tree below) (path : String) :
    ctx.localLocation path p.normalize = ⟨Path.slashed below, p.normalize, tree.isRoot⟩ := by
  have hfind := h.find?_trees hplain
  rw [localLocation]
  cases henclosing : ctx.enclosing? p.normalize with
  | none =>
    rw [enclosing?_eq_none_iff, hfind] at henclosing
    cases henclosing
  | some found =>
    obtain ⟨tree', rest⟩ := found
    obtain ⟨-, -, hrest, hfind'⟩ := enclosing?_eq_some henclosing
    obtain rfl := Option.some_inj.mp (hfind.symm.trans hfind')
    have hbelow : rest.components = below.map .name := by
      rw [h.components_normalize, components_of_mem_trees hplain cwd h.mem_trees, List.map_append,
        ← List.cons_append, List.append_cancel_left_eq] at hrest
      exact hrest.symm
    dsimp only
    rw [Path.slashNames_of_components hbelow]

/-- The tree is the toolchain's own when it is the `src` directory of the toolchain root, which is
searched first. -/
theorem isRoot_iff (h : ctx.LeadsBelow cwd p earlier tree below) :
    tree.isRoot = true ↔
      ∃ root, ctx.goroot = some root ∧ tree.dir.Same (root.child "src") := by
  constructor
  · intro hroot
    rcases GoContext.mem_trees h.mem_trees with ⟨root, hgoroot, rfl⟩ | ⟨root, -, rfl⟩
    · exact ⟨root, hgoroot, rfl⟩
    · cases hroot
  · rintro ⟨root, hgoroot, hsame⟩
    obtain ⟨later, htrees⟩ := h.trees_eq
    have hfirst : ctx.trees = ⟨root.child "src", true⟩ :: ctx.workspaceTrees := by
      rw [trees, rootTree?, hgoroot]
      rfl
    rw [hfirst] at htrees
    cases earlier with
    | nil =>
      obtain ⟨rfl, -⟩ := List.cons.inj htrees
      rfl
    | cons t earlier =>
      -- the toolchain's tree would be an earlier one that contains the place
      obtain ⟨rfl, -⟩ := List.cons.inj htrees
      have hresolved : (root.child "src").resolved cwd = tree.dir.resolved cwd := by
        have hcomponents : tree.dir.components = (root.child "src").components := hsame
        rw [Path.resolved, Path.resolved, hcomponents]
      refine absurd ?_ (h.not_earlier _ List.mem_cons_self)
      rw [hresolved, h.resolved_eq]
      exact List.prefix_append _ _

/-- **The canonical way**: the first directory is the one in the tree. -/
theorem find?_candidates_eq (h : ctx.LeadsBelow cwd p earlier tree below) {path : String} {e : Path}
    (hdir : files.isDir (tree.dir.child path) = true)
    (hearlier : ∀ t ∈ earlier, files.isDir (t.dir.child path) = false)
    (hvendored : ∀ l ∈ ctx.vendorCandidates path e, files.isDir l.dir = false) :
    (ctx.candidates path e).find? (fun l => files.isDir l.dir) =
      some ⟨path, tree.dir.child path, tree.isRoot⟩ := by
  obtain ⟨later, htrees⟩ := h.trees_eq
  rw [find?_candidates_of_no_vendored hvendored, treeCandidates, List.find?_map, htrees,
    Option.map_eq_some_iff]
  refine ⟨tree, List.find?_eq_some_iff_append.mpr ⟨hdir, earlier, later, rfl, fun t ht => ?_⟩, rfl⟩
  rw [Function.comp_apply, hearlier t ht, Bool.not_false]

/-- What is answered for the local path is what is found in the normalized directory. -/
theorem result_locate_local (hplain : ctx.TreesArePlain) {path : String} {sourceDir : Path}
    (h : ctx.LeadsBelow cwd (sourceDir.child path) earlier tree below) (files : FileTree)
    (hvalid : ImportPath.validate path = .ok ()) (hlocal : ImportPath.isLocal path = true)
    (hdir : files.isDir (sourceDir.child path).normalize = true) :
    (ctx.locate files path sourceDir).result =
      (ctx.accept files path
        ⟨Path.slashed below, (sourceDir.child path).normalize, tree.isRoot⟩).result := by
  rw [result_locate_of_local ctx files hvalid hlocal, h.localLocation_eq hplain, if_pos hdir]

/-- What is answered for the canonical path is what is found in the tree's directory. -/
theorem result_locate_canonical (h : ctx.LeadsBelow cwd p earlier tree below)
    (files : FileTree) (e : Path)
    (hvalid : ImportPath.validate (Path.slashed below) = .ok ())
    (hdir : files.isDir (tree.dir.child (Path.slashed below)) = true)
    (hearlier : ∀ t ∈ earlier, files.isDir (t.dir.child (Path.slashed below)) = false)
    (hvendored : ∀ l ∈ ctx.vendorCandidates (Path.slashed below) e, files.isDir l.dir = false) :
    (ctx.locate files (Path.slashed below) e).result =
      (ctx.accept files (Path.slashed below)
        ⟨Path.slashed below, tree.dir.child (Path.slashed below), tree.isRoot⟩).result := by
  have hlocal : ImportPath.isLocal (Path.slashed below) = false :=
    ImportPath.isLocal_slashed h.below_ne_nil h.isStep_of_mem_below
  rw [locate, hvalid]
  dsimp only
  rw [target_of_find?_eq_some hlocal (h.find?_candidates_eq hdir hearlier hvendored)]

/-- The system takes the normalized path when it takes the other one, which is no shorter. -/
theorem fits_normalize (hplain : ctx.TreesArePlain) (h : ctx.LeadsBelow cwd p earlier tree below)
    (hfits : (tree.dir.child (Path.slashed below)).Fits) : p.normalize.Fits := by
  have hsame := h.same_child hplain
  have habs : (tree.dir.child (Path.slashed below)).isAbsolute = true := by
    rw [← Path.isAbsolute_eq_of_same hsame, Path.isAbsolute_normalize, h.isAbsolute]
  exact (Path.utf8ByteSize_normalize_le habs hsame).trans hfits

/-- Below a normally spelled tree the canonical path is the normalized path. -/
theorem child_eq_normalize (hplain : ctx.TreesArePlain)
    (h : ctx.LeadsBelow cwd p earlier tree below) (hnormal : tree.dir.normalize = tree.dir) :
    tree.dir.child (Path.slashed below) = p.normalize := by
  have hcomponents := components_of_mem_trees hplain cwd h.mem_trees
  have habove : tree.dir.resolved cwd ≠ [] := by
    intro hnil
    obtain ⟨above, hsrc⟩ := exists_components_of_mem_trees h.mem_trees
    rw [hcomponents, hnil] at hsrc
    have hlast := congrArg List.getLast? hsrc
    rw [List.getLast?_concat] at hlast
    cases hlast
  exact Path.child_eq_normalize hnormal hcomponents habove h.below_ne_nil h.isStep_of_mem
    h.components_normalize

end LeadsBelow

/-! ## 3. Agreement -/

/-- A directory whose text begins with no source tree has no vendored candidates. -/
theorem vendorCandidates_of_outside {path : String} {e : Path}
    (h : ∀ t ∈ ctx.trees, ¬ t.dir.components <+: e.components) :
    ctx.vendorCandidates path e = [] := by
  have hnone : ctx.enclosing? e = none := by
    rw [enclosing?_eq_none_iff, List.find?_eq_none]
    simpa using h
  rw [vendorCandidates, hnone]

theorem found_eq_of_result_eq {r r' : Lookup} (h : r.result = r'.result) : r.found = r'.found := by
  rw [Lookup.found, h, Lookup.found]

/-- What the local way answers is named, placed and classified by the tree. -/
theorem LeadsBelow.of_located (hplain : ctx.TreesArePlain) {path : String} {sourceDir : Path}
    (hlocal : ImportPath.isLocal path = true)
    (h : ctx.LeadsBelow cwd (sourceDir.child path) earlier tree below) {l : Location}
    (hl : (ctx.locate files path sourceDir).result = .ok l) :
    l.importPath = Path.slashed below ∧ l.dir.Same (tree.dir.child (Path.slashed below)) ∧
      (l.isRoot = true ↔ ∃ root, ctx.goroot = some root ∧ tree.dir.Same (root.child "src")) := by
  obtain ⟨-, htarget⟩ := target_of_locate hl
  rw [target, hlocal, if_pos rfl] at htarget
  dsimp only at htarget
  split at htarget
  · rw [h.localLocation_eq hplain] at htarget
    obtain rfl := Except.ok.inj htarget
    exact ⟨rfl, h.same_child hplain, h.isRoot_iff⟩
  · cases htarget

/-- **Both ways find the same**, when the system takes the same files behind both spellings. -/
theorem LeadsBelow.found_locate_eq (hplain : ctx.TreesArePlain) {path : String} {sourceDir e : Path}
    (hvalid : ImportPath.validate path = .ok ()) (hlocal : ImportPath.isLocal path = true)
    (h : ctx.LeadsBelow cwd (sourceDir.child path) earlier tree below)
    (hcanonical : ImportPath.validate (Path.slashed below) = .ok ())
    (hdir : files.isDir (tree.dir.child (Path.slashed below)) = true)
    (hearlier : ∀ t ∈ earlier, files.isDir (t.dir.child (Path.slashed below)) = false)
    (hfiles : ∀ name ∈ files.namesIn (tree.dir.child (Path.slashed below)),
      (((sourceDir.child path).normalize.child name).Fits ↔
        ((tree.dir.child (Path.slashed below)).child name).Fits))
    (hvendored : ∀ l ∈ ctx.vendorCandidates (Path.slashed below) e, files.isDir l.dir = false) :
    (ctx.locate files path sourceDir).found = (ctx.locate files (Path.slashed below) e).found := by
  have hsame := h.same_child hplain
  obtain ⟨entries, hfind⟩ := FileTree.isDir_iff.mp hdir
  have hfits := FileTree.fits_of_find hfind
  have hfits' := h.fits_normalize hplain hfits
  have hfind' : files.find (sourceDir.child path).normalize = .ok (.dir entries) :=
    (FileTree.find_eq_dir_iff_of_same hsame hfits' hfits).mpr hfind
  have hdir' : files.isDir (sourceDir.child path).normalize = true :=
    FileTree.isDir_iff.mpr ⟨entries, hfind'⟩
  rw [found_eq_of_result_eq (h.result_locate_local hplain files hvalid hlocal hdir'),
    found_eq_of_result_eq (h.result_locate_canonical files e hcanonical hdir hearlier hvendored)]
  have hcomponents : (sourceDir.child path).normalize.components =
      (tree.dir.child (Path.slashed below)).components := hsame
  refine found_accept_eq_of_find_child ?_ hfind' hfind fun name hname => ?_
  · rw [Location.place, Location.place, hcomponents]
  · refine FileTree.find_child_of_same hsame hfits' hfits hfind' (hfiles name ?_)
    rwa [(list_and_namesIn_of_find hfind).2, ← (list_and_namesIn_of_find hfind').2]

/-- **A package has one name and one place, by its local and by its canonical path.**  Let the
source trees be written from the root and without `..`, and let a local import path lead, from the
importing directory, below a source tree.

1. A package that is found has what is left behind the tree as its canonical path, its directory is
   the one in the tree, and it belongs to the toolchain when the tree is the toolchain's own.
2. Let this canonical path be valid, and let it lead to a directory in the tree and in none before
   it.  Let the tree be spelled normally, or let the paths of the entries be too long for the system
   in both spellings or in none.  Then from any directory that is written outside the source trees,
   or that sees no `vendor` directory with it, the canonical path is found at the same place as the
   local one, or both fail with the same kind of error. -/
theorem locate_local_agrees (ctx : GoContext) (files : FileTree) (hplain : ctx.TreesArePlain)
    {path : String} (hvalid : ImportPath.validate path = .ok ())
    (hlocal : ImportPath.isLocal path = true) {sourceDir : Path}
    (h : ctx.LeadsBelow files.cwd (sourceDir.child path) earlier tree below) :
    let canonical := Path.slashed below
    let dir := tree.dir.child canonical
    (∀ l, (ctx.locate files path sourceDir).result = .ok l →
      l.importPath = canonical ∧ l.dir.Same dir ∧
      (l.isRoot = true ↔ ∃ root, ctx.goroot = some root ∧ tree.dir.Same (root.child "src"))) ∧
    (ImportPath.validate canonical = .ok () → files.isDir dir = true →
      (∀ t ∈ earlier, files.isDir (t.dir.child canonical) = false) →
      (tree.dir.normalize = tree.dir ∨ ∀ name ∈ files.namesIn dir,
        (((sourceDir.child path).normalize.child name).Fits ↔ (dir.child name).Fits)) →
      ∀ e, ((∀ t ∈ ctx.trees, ¬ t.dir.components <+: e.components) ∨
          ∀ l ∈ ctx.vendorCandidates canonical e, files.isDir l.dir = false) →
        (ctx.locate files path sourceDir).found = (ctx.locate files canonical e).found) := by
  refine ⟨fun l hl => h.of_located hplain hlocal hl,
    fun hcanonical hdir hearlier hspelling e hout => ?_⟩
  refine h.found_locate_eq hplain hvalid hlocal hcanonical hdir hearlier ?_ ?_
  · rcases hspelling with hnormal | hfiles
    · rw [h.child_eq_normalize hplain hnormal]
      exact fun name _ => Iff.rfl
    · exact hfiles
  · rcases hout with houtside | hnone
    · rw [vendorCandidates_of_outside houtside]
      exact fun l hl => absurd hl List.not_mem_nil
    · exact hnone

/-- Two source trees, one in the other and the outer one written with slashes to spare. -/
def nestedTrees : GoContext × FileTree :=
  ({ goroot := some ⟨"/go"⟩, gopath := [⟨"//w/."⟩, ⟨"/w/src/app"⟩] },
    { cwd := []
      root := .dir [("w", .dir [("src", .dir [("app", .dir [("src", .dir
        [("tool", .dir []), ("lib", .dir [("lib.go", .file (.text "package lib\n"))])])])])])] })

/-- A package of the inner tree is one of the outer tree, from beside it and from outside. -/
theorem locate_local_agrees_in_nestedTrees :
    let ctx := nestedTrees.1
    let files := nestedTrees.2
    ctx.LeadsBelow files.cwd (Path.child ⟨"/w/src/app/src/tool"⟩ "../lib")
        [⟨⟨"/go/src"⟩, true⟩] ⟨⟨"//w/./src"⟩, false⟩ ["app", "src", "lib"] ∧
      (ctx.locate files "../lib" ⟨"/w/src/app/src/tool"⟩).result =
        .ok ⟨"app/src/lib", ⟨"/w/src/app/src/lib"⟩, false⟩ ∧
      (ctx.locate files "../lib" ⟨"/w/src/app/src/tool"⟩).found =
        (ctx.locate files "app/src/lib" ⟨"/"⟩).found := by
  intro ctx files
  have hplain : ctx.TreesArePlain := by decide
  have hvalid : ImportPath.validate "../lib" = .ok () := by decide
  have hlocal : ImportPath.isLocal "../lib" = true := by decide
  have hleads : ctx.LeadsBelow files.cwd (Path.child ⟨"/w/src/app/src/tool"⟩ "../lib")
      [⟨⟨"/go/src"⟩, true⟩] ⟨⟨"//w/./src"⟩, false⟩ ["app", "src", "lib"] :=
    ⟨by decide, by decide, ⟨[⟨⟨"/w/src/app/src"⟩, false⟩], by decide⟩, by decide, by decide,
      by decide⟩
  have hagrees := (locate_local_agrees ctx files hplain hvalid hlocal hleads).2 (by decide)
    (by decide) (by decide) (.inr (by decide)) ⟨"/"⟩ (.inl (by decide))
  exact ⟨hleads, by decide +kernel, hagrees⟩

end GoContext

/-! ## 4. Where the ways part -/

namespace Path

/-- A path with some slashes in front. -/
def slashesBefore : Nat → String → Path
  | 0, s => ⟨s⟩
  | n + 1, s => ⟨"/" ++ (slashesBefore n s).text⟩

theorem utf8ByteSize_slashesBefore (n : Nat) (s : String) :
    (slashesBefore n s).text.utf8ByteSize = n + s.utf8ByteSize := by
  have hslash : ("/" : String).utf8ByteSize = 1 := by decide
  induction n with
  | zero => rw [slashesBefore, Nat.zero_add]
  | succ n ih =>
    rw [slashesBefore, String.utf8ByteSize_append, ih, hslash]
    omega

theorem text_slashesBefore_append (n : Nat) (s s' : String) :
    (slashesBefore n s).text ++ s' = (slashesBefore n (s ++ s')).text := by
  induction n with
  | zero => rfl
  | succ n ih => rw [slashesBefore, slashesBefore, String.append_assoc, ih]

/-- An entry is written behind all that is there. -/
theorem child_slashesBefore (n : Nat) (s name : String) {c : Char}
    (hs : s.toList.getLast? = some c) (hc : c ≠ '/') (hname : isAbsolute ⟨name⟩ = false) :
    (slashesBefore n s).child name = slashesBefore n (s ++ "/" ++ name) := by
  have hlast : (slashesBefore n s).text.toList.getLast? = some c := by
    induction n with
    | zero => exact hs
    | succ n ih =>
      rw [slashesBefore, String.toList_append, List.getLast?_append, ih, Option.some_or]
  have hne : (slashesBefore n s).text ≠ "" := by
    intro hempty
    rw [hempty] at hlast
    cases hlast
  have hslash : (slashesBefore n s).text.toList.getLast? ≠ some '/' := by
    rw [hlast]
    exact fun h => hc (Option.some_inj.mp h)
  rw [child, join, hname, if_neg Bool.false_ne_true, if_neg (not_or.mpr ⟨hne, hslash⟩),
    text_slashesBefore_append, text_slashesBefore_append]

theorem isAbsolute_slashesBefore (n : Nat) (s : String) :
    (slashesBefore (n + 1) s).isAbsolute = true := by
  simp [isAbsolute, slashesBefore]

/-- Of some slashes in front, the first counts. -/
theorem components_slashesBefore (n : Nat) (s : String) :
    (slashesBefore (n + 1) s).components = .root :: steps ⟨s⟩ := by
  have hsteps : ∀ n, (slashesBefore n s).steps = steps ⟨s⟩ := by
    intro n
    induction n with
    | zero => rfl
    | succ n ih =>
      have hsegs : (slashesBefore (n + 1) s).segments = "" :: (slashesBefore n s).segments :=
        segments_append_slash "" (slashesBefore n s).text
      rw [steps, hsegs, List.filterMap_cons_none rfl]
      exact ih
  rw [components_eq, isAbsolute_iff_lead_eq_root.mp (isAbsolute_slashesBefore n s), hsteps]
  rfl

end Path

namespace GoContext

variable {ctx : GoContext} {files : FileTree} {cwd : List String} {p : Path}
  {earlier : List SourceTree} {tree : SourceTree} {below : List String}

/-- A directory is no package when the paths of all its entries are too long. -/
theorem result_accept_of_not_fits {path : String} {l : Location} {entries : List (String × Node)}
    (hfind : files.find l.dir = .ok (.dir entries))
    (hlong : ∀ name ∈ entries.map Prod.fst, ¬ (l.dir.child name).Fits) :
    (ctx.accept files path l).result = .error (.noBuildableFiles path l.dir) := by
  have hexamine : ∀ names : List String, (∀ name ∈ names, ¬ (l.dir.child name).Fits) →
      (ctx.examine files l.dir names).verdict = .ok false := by
    intro names hnames
    induction names with
    | nil => rfl
    | cons name names ih =>
      obtain ⟨hname, hrest⟩ := List.forall_mem_cons.mp hnames
      rw [examine, FileTree.isFile_of_not_fits hname, Bool.false_and, Bool.not_false, if_pos rfl]
      exact ih hrest
  rw [accept, (list_and_namesIn_of_find hfind).1]
  dsimp only
  rw [hexamine _ hlong]

/-- **A package is not found by its canonical path when its files are too long behind the tree.** -/
theorem locate_canonical_of_not_fits (h : ctx.LeadsBelow cwd p earlier tree below) {path : String}
    (hpath : Path.slashed below = path) (hvalid : ImportPath.validate path = .ok ())
    (hearlier : ∀ t ∈ earlier, files.isDir (t.dir.child path) = false) {e : Path}
    (houtside : ∀ t ∈ ctx.trees, ¬ t.dir.components <+: e.components)
    {entries : List (String × Node)}
    (hfind : files.find (tree.dir.child path) = .ok (.dir entries))
    (hlong : ∀ name ∈ entries.map Prod.fst, ¬ ((tree.dir.child path).child name).Fits) :
    (ctx.locate files path e).result = .error (.noBuildableFiles path (tree.dir.child path)) := by
  subst hpath
  have hdir : files.isDir (tree.dir.child (Path.slashed below)) = true :=
    FileTree.isDir_iff.mpr ⟨entries, hfind⟩
  rw [h.result_locate_canonical files e hvalid hdir hearlier (by
    rw [vendorCandidates_of_outside houtside]
    exact fun l hl => absurd hl List.not_mem_nil)]
  exact result_accept_of_not_fits hfind hlong

/-- A workspace that is written with so many slashes that its package `lib` can be looked at, but
not the file in it. -/
def manySlashes : GoContext × FileTree :=
  ({ gopath := [Path.slashesBefore 4085 "w"] },
    { cwd := []
      root := .dir [("w", .dir [("src", .dir
        [("lib", .dir [("lib.go", .file (.text "package lib\n"))])])])] })

/-- Its source tree. -/
def longTree : SourceTree := ⟨Path.slashesBefore 4085 "w/src", false⟩

theorem trees_manySlashes : manySlashes.1.trees = [longTree] := by
  have hchild := Path.child_slashesBefore 4085 "w" "src" (c := 'w') (by decide) (by decide)
    (by decide)
  have htrees : manySlashes.1.trees = [⟨(Path.slashesBefore 4085 "w").child "src", false⟩] := rfl
  rw [htrees, hchild]
  rfl

theorem components_longTree : longTree.dir.components = [.root, .name "w", .name "src"] :=
  (Path.components_slashesBefore 4084 "w/src").trans (by decide)

theorem treesArePlain_manySlashes : manySlashes.1.TreesArePlain := by
  intro t ht
  rw [trees_manySlashes] at ht
  obtain rfl := List.mem_singleton.mp ht
  refine ⟨Path.isAbsolute_slashesBefore 4084 "w/src", ?_⟩
  rw [components_longTree]
  decide

theorem leadsBelow_manySlashes :
    manySlashes.1.LeadsBelow [] (Path.child ⟨"/w/src/app"⟩ "../lib") [] longTree ["lib"] := by
  have hresolved : longTree.dir.resolved [] = ["w", "src"] := by
    rw [Path.resolved, components_longTree]
    rfl
  refine ⟨by decide, by decide, ⟨[], trees_manySlashes⟩, by simp, ?_, by decide⟩
  rw [hresolved]
  decide

theorem normalize_beside_manySlashes :
    (Path.child ⟨"/w/src/app"⟩ "../lib").normalize = ⟨"/w/src/lib"⟩ := by
  decide

theorem child_longTree : longTree.dir.child "lib" = Path.slashesBefore 4085 "w/src/lib" :=
  Path.child_slashesBefore 4085 "w/src" "lib" (c := 'c') (by decide) (by decide) (by decide)

/-- The package has a path of 4094 bytes. -/
theorem find_child_longTree : manySlashes.2.find (longTree.dir.child "lib") =
    .ok (.dir [("lib.go", .file (.text "package lib\n"))]) := by
  have hfits : (longTree.dir.child "lib").Fits := by
    rw [child_longTree, Path.Fits, Path.utf8ByteSize_slashesBefore]
    decide
  have hsame := leadsBelow_manySlashes.same_child treesArePlain_manySlashes
  rw [normalize_beside_manySlashes] at hsame
  exact (FileTree.find_eq_dir_iff_of_same hsame (by decide) hfits).mp rfl

/-- Its file would have one of 4101 bytes. -/
theorem not_fits_child_longTree : ¬ ((longTree.dir.child "lib").child "lib.go").Fits := by
  have hfile : (Path.slashesBefore 4085 "w/src/lib").child "lib.go" =
      Path.slashesBefore 4085 "w/src/lib/lib.go" :=
    Path.child_slashesBefore 4085 "w/src/lib" "lib.go" (c := 'b') (by decide) (by decide)
      (by decide)
  rw [child_longTree, hfile, Path.Fits, Path.utf8ByteSize_slashesBefore]
  decide

/-- A workspace in which a program vendors a package that the workspace has too. -/
def vendoredAndBeside : GoContext × FileTree :=
  ({ gopath := [⟨"/ws"⟩] },
    { cwd := []
      root := .dir [("ws", .dir [("src", .dir
        [("app", .dir
          [("vendor", .dir [("lib", .dir [("lib.go", .file (.text "package lib\n"))])])]),
          ("lib", .dir [("lib.go", .file (.text "package lib\n"))])])])] })

/-- **A package by its local and by its canonical path is not always the same.**  First, the slashes
of a source tree may leave no room for the names of files.  Second, from a directory outside of all
source trees a vendored package may be found, when the text of the directory passes through a
tree. -/
theorem not_agree_of_slashes_or_detour :
    (ImportPath.validate "../lib" = .ok () ∧ ImportPath.isLocal "../lib" = true ∧
      Path.slashed ["lib"] = "lib" ∧ ImportPath.validate "lib" = .ok ()) ∧
    (let ctx := manySlashes.1
     let files := manySlashes.2
     ctx.TreesArePlain ∧
      ctx.LeadsBelow files.cwd (Path.child ⟨"/w/src/app"⟩ "../lib") [] longTree ["lib"] ∧
      files.isDir (longTree.dir.child "lib") = true ∧
      (∀ t ∈ ctx.trees, ¬ t.dir.components <+: Path.components ⟨"/out"⟩) ∧
      (ctx.locate files "../lib" ⟨"/w/src/app"⟩).result = .ok ⟨"lib", ⟨"/w/src/lib"⟩, false⟩ ∧
      (ctx.locate files "lib" ⟨"/out"⟩).result =
        .error (.noBuildableFiles "lib" (longTree.dir.child "lib"))) ∧
    (let ctx := vendoredAndBeside.1
     let files := vendoredAndBeside.2
     let e : Path := ⟨"/ws/src/app/../../../out"⟩
     ctx.TreesArePlain ∧
      ctx.LeadsBelow files.cwd (Path.child ⟨"/ws/src/app"⟩ "../lib") []
        ⟨⟨"/ws/src"⟩, false⟩ ["lib"] ∧
      files.isDir ⟨"/ws/src/lib"⟩ = true ∧
      (∀ t ∈ ctx.trees, ¬ t.dir.resolved files.cwd <+: e.resolved files.cwd) ∧
      (ctx.locate files "../lib" ⟨"/ws/src/app"⟩).result = .ok ⟨"lib", ⟨"/ws/src/lib"⟩, false⟩ ∧
      (ctx.locate files "lib" e).result =
        .ok ⟨"app/vendor/lib", ⟨"/ws/src/app/vendor/lib"⟩, false⟩) := by
  have houtside : ∀ t ∈ manySlashes.1.trees, ¬ t.dir.components <+: Path.components ⟨"/out"⟩ := by
    intro t ht
    rw [trees_manySlashes] at ht
    obtain rfl := List.mem_singleton.mp ht
    rw [components_longTree]
    decide
  refine ⟨by decide, ?_, ?_⟩
  · refine ⟨treesArePlain_manySlashes, leadsBelow_manySlashes,
      FileTree.isDir_iff.mpr ⟨_, find_child_longTree⟩, houtside, ?_, ?_⟩
    · rw [leadsBelow_manySlashes.result_locate_local treesArePlain_manySlashes _ (by decide)
        (by decide) (by rw [normalize_beside_manySlashes]; decide), normalize_beside_manySlashes]
      decide +kernel
    · refine locate_canonical_of_not_fits leadsBelow_manySlashes (by decide) (by decide) (by simp)
        houtside find_child_longTree fun name hname => ?_
      obtain rfl : name = "lib.go" := List.mem_singleton.mp hname
      exact not_fits_child_longTree
  · have hleads : vendoredAndBeside.1.LeadsBelow [] (Path.child ⟨"/ws/src/app"⟩ "../lib") []
        ⟨⟨"/ws/src"⟩, false⟩ ["lib"] :=
      ⟨by decide, by decide, ⟨[], by decide⟩, by simp, by decide, by decide⟩
    exact ⟨by decide, hleads, by decide, by decide, by decide +kernel, by decide +kernel⟩

end GoContext

end GoResolver
