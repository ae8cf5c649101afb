import GoResolver.Proofs.Constraint.Header
import GoResolver.Proofs.FileTree.Sources
import GoResolver.Proofs.GoContext.Places

/-!
# The search order

An import path that is not local is searched for at a list of places.  `searchPlan` writes that list
down from the components of the importing directory alone: the `vendor` directories of the first
source tree that contains it, from the directory up to the tree, and then every source tree.
`locate_of_not_local` says that the search follows the plan:

* the candidates are the places of the plan, one for one (`map_place_candidates`);
* when none of them is a directory, the source trees are reported as searched;
* otherwise the first that is a directory decides *alone*.  It is the answer when it is a package,
  and when it is none the search fails there, whatever the later candidates hold.

## What is assumed

The importing directory has no `..`: with one, the canonical path of a vendored package leaves it
out and its directory does not.  And the source files of the tree are text, for a source file that
is none ends the look through a directory with an error, before or after a file that builds, as the
directory lists them (`exists_verdict_examine` is where this is used).
-/

namespace GoResolver

/-! ## 1. The plan -/

/-- A place where a package is searched for. -/
structure Place where
  /-- The canonical path of a package that is found there. -/
  importPath : String
  /-- The components of the directory. -/
  dir : List Component
  /-- Whether a package that is found there belongs to the toolchain's own distribution. -/
  isRoot : Bool
  deriving Repr, DecidableEq

/-- The place of a location, whatever way its directory is spelled. -/
def Location.place (l : Location) : Place := ⟨l.importPath, l.dir.components, l.isRoot⟩

namespace GoContext

/-- The places in the `vendor` directories between a source tree and a directory below it, innermost
first. -/
def vendorPlan (tree : SourceTree) (path : String) (below : List Component) : List Place :=
  below.inits.reverse.map fun sub =>
    { importPath := Path.slashed (sub.map Component.segment ++ ["vendor", path])
      dir := tree.dir.components ++ sub ++
        .name "vendor" :: (ImportPath.elements path).map .name
      isRoot := tree.isRoot }

/-- The places in the source trees. -/
def treePlan (ctx : GoContext) (path : String) : List Place :=
  ctx.trees.map fun tree =>
    { importPath := path
      dir := tree.dir.components ++ (ImportPath.elements path).map .name
      isRoot := tree.isRoot }

/-- The places where an import path is searched for, in order. -/
def searchPlan (ctx : GoContext) (path : String) (sourceDir : List Component) : List Place :=
  (match ctx.trees.find? fun tree => tree.dir.components.isPrefixOf sourceDir with
    | none => []
    | some tree => vendorPlan tree path (sourceDir.drop tree.dir.components.length)) ++
  ctx.treePlan path

variable {ctx : GoContext} {files : FileTree} {path : String} {sourceDir : Path}

theorem map_place_treeCandidates (hvalid : ImportPath.validate path = .ok ())
    (hlocal : ImportPath.isLocal path = false) :
    (ctx.treeCandidates path).map Location.place = ctx.treePlan path := by
  rw [treeCandidates, treePlan, List.map_map]
  refine List.map_congr_left fun tree _ => ?_
  rw [Function.comp_apply, Location.place,
    ImportPath.components_child_of_valid hvalid hlocal tree.dir]

theorem map_place_vendorCandidates (hvalid : ImportPath.validate path = .ok ())
    (hlocal : ImportPath.isLocal path = false) (hup : .up ∉ sourceDir.components)
    {tree : SourceTree} {rest : Path} (h : ctx.enclosing? sourceDir = some (tree, rest)) :
    (ctx.vendorCandidates path sourceDir).map Location.place =
      vendorPlan tree path rest.components := by
  obtain ⟨-, hlead, hcomponents, -⟩ := enclosing?_eq_some h
  -- the subdirectories are the beginnings of the rest, so none of them has a lead or a `..` either
  have hsub : ∀ sub ∈ rest.ancestors, sub.lead = none ∧ .up ∉ sub.components := by
    intro sub hmem
    refine ⟨Path.lead_of_mem_ancestors hlead hmem, fun hmemup => hup ?_⟩
    rw [hcomponents]
    exact List.mem_append_right _
      ((Path.components_prefix_of_mem_ancestors hlead hmem).subset hmemup)
  rw [vendorCandidates, h, vendorPlan, ← Path.components_ancestors hlead, List.map_map,
    List.map_map]
  refine List.map_congr_left fun sub hmem => ?_
  obtain ⟨hsublead, hsubup⟩ := hsub sub hmem
  rw [Function.comp_apply, Function.comp_apply, Location.place,
    importPath_vendored tree hsublead hsubup, components_vendored hvalid hlocal tree hsublead]
  rfl

/-- **The candidates of an import are the places of the plan.** -/
theorem map_place_candidates (hvalid : ImportPath.validate path = .ok ())
    (hlocal : ImportPath.isLocal path = false) (hup : .up ∉ sourceDir.components) :
    (ctx.candidates path sourceDir).map Location.place =
      ctx.searchPlan path sourceDir.components := by
  rw [candidates, List.map_append, map_place_treeCandidates hvalid hlocal, searchPlan]
  cases h : ctx.enclosing? sourceDir with
  | none =>
    rw [vendorCandidates, h, enclosing?_eq_none_iff.mp h]
    rfl
  | some found =>
    obtain ⟨tree, rest⟩ := found
    obtain ⟨-, -, hcomponents, hfind⟩ := enclosing?_eq_some h
    rw [map_place_vendorCandidates hvalid hlocal hup h, hfind]
    dsimp only
    rw [hcomponents, List.drop_left]

/-! ## 2. Packages -/

/-- Whether a file with this name and text builds for the target: files of that name do, and the
text states no constraint or one that holds. -/
def Builds (ctx : GoContext) (name source : String) : Prop :=
  ctx.isBuildableName name = true ∧
    (Constraint.ofSource source = .ok none ∨
      ∃ c, Constraint.ofSource source = .ok (some c) ∧ c.holds ctx.satisfies = true)

/-- Whether the path of a directory's entry leads to a file that builds for the target. -/
def BuildsAt (ctx : GoContext) (files : FileTree) (dir : Path) (name : String) : Prop :=
  ∃ source, files.readText (dir.child name) = .ok source ∧ ctx.Builds name source

/-- Whether a directory holds a file that builds for the target. -/
def IsPackage (ctx : GoContext) (files : FileTree) (dir : Path) : Prop :=
  ∃ entries, files.list dir = .ok entries ∧ ∃ e ∈ entries, ctx.BuildsAt files dir e.1

/-- Only source files build. -/
theorem sourceEnding_suffix_of_isBuildableName {name : String}
    (h : ctx.isBuildableName name = true) : sourceEnding <:+ name.toList := by
  rw [isBuildableName] at h
  split at h
  · cases h
  · next stem hstem =>
    rw [stem?] at hstem
    split at hstem
    · cases hstem
    · next before hbefore => exact ⟨before, (Text.before?_eq_some_iff.mp hbefore).symm⟩

/-- A file that builds ends the look through a directory. -/
theorem verdict_examine_of_buildsAt {dir : Path} {name : String}
    (h : ctx.BuildsAt files dir name) (rest : List String) :
    (ctx.examine files dir (name :: rest)).verdict = .ok true := by
  obtain ⟨source, hread, hname, hbuilds⟩ := h
  have hfile : files.isFile (dir.child name) = true := by
    rw [FileTree.readText] at hread
    rw [FileTree.isFile]
    split at hread <;> simp_all
  rw [examine, hfile, hname, Bool.and_self, Bool.not_true, if_neg Bool.false_ne_true, hread]
  dsimp only
  rcases hbuilds with hsource | ⟨c, hsource, hholds⟩
  · rw [hsource]
  · rw [hsource]
    dsimp only
    rw [if_pos hholds]

/-- Whether a directory's entry is a file whose name builds for the target but whose text cannot be
read. -/
def UnreadableAt (ctx : GoContext) (files : FileTree) (dir : Path) (name : String) : Prop :=
  files.isFile (dir.child name) = true ∧ ctx.isBuildableName name = true ∧
    ∃ e, files.readText (dir.child name) = .error e

/-- An entry that neither builds nor fails to be read leaves the others to decide. -/
theorem verdict_examine_of_passed {dir : Path} {name : String}
    (hbuilds : ¬ ctx.BuildsAt files dir name) (hreadable : ¬ ctx.UnreadableAt files dir name)
    (rest : List String) :
    (ctx.examine files dir (name :: rest)).verdict = (ctx.examine files dir rest).verdict := by
  rw [examine]
  by_cases hskip : (!(files.isFile (dir.child name) && ctx.isBuildableName name)) = true
  · rw [if_pos hskip]
  · rw [if_neg hskip]
    obtain ⟨hfile, hname⟩ : files.isFile (dir.child name) = true ∧
        ctx.isBuildableName name = true := by simpa using hskip
    cases hread : files.readText (dir.child name) with
    | error e => exact absurd ⟨hfile, hname, e, hread⟩ hreadable
    | ok source =>
      dsimp only
      cases hsource : Constraint.ofSource source with
      | error malformed => rfl
      | ok constraint =>
        cases constraint with
        | none => exact absurd ⟨source, hread, hname, .inl hsource⟩ hbuilds
        | some c =>
          have hfails : ¬ c.holds ctx.satisfies = true := fun hholds =>
            hbuilds ⟨source, hread, hname, .inr ⟨c, hsource, hholds⟩⟩
          dsimp only
          rw [if_neg hfails]

/-- A file that cannot be read ends the look through a directory. -/
theorem verdict_examine_of_unreadableAt {dir : Path} {name : String}
    (h : ctx.UnreadableAt files dir name) (rest : List String) :
    ∃ e : SystemError, files.readText (dir.child name) = .error e ∧
      (ctx.examine files dir (name :: rest)).verdict = .error (.io (dir.child name) e.message) := by
  obtain ⟨hfile, hname, e, hread⟩ := h
  refine ⟨e, hread, ?_⟩
  rw [examine, hfile, hname, Bool.and_self, Bool.not_true, if_neg Bool.false_ne_true, hread]

/-- **What is found in a directory is there**, and nothing is found only if nothing is there. -/
theorem verdict_examine_cases (ctx : GoContext) (files : FileTree) (dir : Path)
    (names : List String) :
    ((ctx.examine files dir names).verdict = .ok true ∧
      ∃ name ∈ names, ctx.BuildsAt files dir name) ∨
    (∃ (name : String) (e : SystemError), name ∈ names ∧ ctx.UnreadableAt files dir name ∧
      files.readText (dir.child name) = .error e ∧
      (ctx.examine files dir names).verdict = .error (.io (dir.child name) e.message)) ∨
    ((ctx.examine files dir names).verdict = .ok false ∧
      ∀ name ∈ names, ¬ ctx.BuildsAt files dir name ∧ ¬ ctx.UnreadableAt files dir name) := by
  induction names with
  | nil => exact .inr (.inr ⟨rfl, by simp⟩)
  | cons name names ih =>
    by_cases hbuilds : ctx.BuildsAt files dir name
    · exact .inl ⟨verdict_examine_of_buildsAt hbuilds names, name, List.mem_cons_self, hbuilds⟩
    by_cases hunreadable : ctx.UnreadableAt files dir name
    · obtain ⟨e, hread, hverdict⟩ := verdict_examine_of_unreadableAt hunreadable names
      exact .inr (.inl ⟨name, e, List.mem_cons_self, hunreadable, hread, hverdict⟩)
    -- the other names decide
    rw [verdict_examine_of_passed hbuilds hunreadable]
    rcases ih with
      ⟨hverdict, name', hmem, h⟩ | ⟨name', e, hmem, h⟩ | ⟨hverdict, h⟩
    · exact .inl ⟨hverdict, name', List.mem_cons_of_mem _ hmem, h⟩
    · exact .inr (.inl ⟨name', e, List.mem_cons_of_mem _ hmem, h⟩)
    · exact .inr (.inr ⟨hverdict, List.forall_mem_cons.mpr ⟨⟨hbuilds, hunreadable⟩, h⟩⟩)

/-- Where source files are text, none of them fails to be read. -/
theorem not_unreadableAt_of_sourcesAreText (htext : files.root.SourcesAreText) (dir : Path)
    (name : String) : ¬ ctx.UnreadableAt files dir name := by
  rintro ⟨hfile, hname, e, hread⟩
  have hending : sourceEnding <:+ (dir.child name).text.toList :=
    (sourceEnding_suffix_of_isBuildableName hname).trans (Path.suffix_text_child dir name)
  obtain ⟨source, hsource⟩ := FileTree.exists_readText_eq htext hending hfile
  rw [hsource] at hread
  cases hread

/-- An entry that is no file that builds leaves the others to decide. -/
theorem verdict_examine_of_not_buildsAt (htext : files.root.SourcesAreText) {dir : Path}
    {name : String} (h : ¬ ctx.BuildsAt files dir name) (rest : List String) :
    (ctx.examine files dir (name :: rest)).verdict = (ctx.examine files dir rest).verdict :=
  verdict_examine_of_passed h (not_unreadableAt_of_sourcesAreText htext dir name) rest

/-- **Looking through the names in a directory finds out whether one of them builds.** -/
theorem exists_verdict_examine (htext : files.root.SourcesAreText) (dir : Path)
    (names : List String) :
    ∃ b, (ctx.examine files dir names).verdict = .ok b ∧
      (b = true ↔ ∃ name ∈ names, ctx.BuildsAt files dir name) := by
  induction names with
  | nil => exact ⟨false, rfl, by simp⟩
  | cons name rest ih =>
    by_cases h : ctx.BuildsAt files dir name
    · exact ⟨true, verdict_examine_of_buildsAt h rest, by simp [h]⟩
    · obtain ⟨b, hverdict, hb⟩ := ih
      exact ⟨b, by rw [verdict_examine_of_not_buildsAt htext h, hverdict], by simp [hb, h]⟩

/-- A directory is accepted when it is a package, and for no other reason. -/
theorem result_accept (htext : files.root.SourcesAreText) (path : String) {l : Location}
    (hdir : files.isDir l.dir = true) :
    (ctx.IsPackage files l.dir → (ctx.accept files path l).result = .ok l) ∧
    (¬ ctx.IsPackage files l.dir →
      (ctx.accept files path l).result = .error (.noBuildableFiles path l.dir)) := by
  obtain ⟨entries, hlist⟩ : ∃ entries, files.list l.dir = .ok entries := by
    rw [FileTree.isDir] at hdir
    rw [FileTree.list]
    split at hdir
    · next entries hfind => exact ⟨entries, by rw [hfind]⟩
    · cases hdir
  obtain ⟨b, hverdict, hb⟩ : ∃ b, (ctx.examine files l.dir (entries.map Prod.fst)).verdict = .ok b ∧
      (b = true ↔ ∃ name ∈ entries.map Prod.fst, ctx.BuildsAt files l.dir name) :=
    exists_verdict_examine htext l.dir _
  have hpackage : b = true ↔ ctx.IsPackage files l.dir := by
    rw [hb]
    constructor
    · rintro ⟨name, hname, hbuilds⟩
      obtain ⟨e, he, rfl⟩ := List.mem_map.mp hname
      exact ⟨entries, hlist, e, he, hbuilds⟩
    · rintro ⟨entries', hlist', e, he, hbuilds⟩
      rw [hlist, Except.ok.injEq] at hlist'
      exact ⟨e.1, List.mem_map_of_mem (hlist' ▸ he), hbuilds⟩
  rw [accept, hlist]
  dsimp only
  rw [hverdict]
  refine ⟨fun h => ?_, fun h => ?_⟩
  · rw [hpackage.mpr h]
  · rw [Bool.eq_false_iff.mpr fun hb => h (hpackage.mp hb)]

/-! ## 3. The search -/

/-- The search takes the first candidate that is a directory. -/
theorem target_of_find?_eq_some (hlocal : ImportPath.isLocal path = false) {l : Location}
    (h : (ctx.candidates path sourceDir).find? (fun l => files.isDir l.dir) = some l) :
    ctx.target files path sourceDir = .ok l := by
  rw [target, hlocal, if_neg Bool.false_ne_true, h]

/-- The search fails when no candidate is a directory. -/
theorem target_of_find?_eq_none (hlocal : ImportPath.isLocal path = false)
    (h : (ctx.candidates path sourceDir).find? (fun l => files.isDir l.dir) = none) :
    ctx.target files path sourceDir =
      .error (.notFound path sourceDir (ctx.trees.map fun tree => tree.dir.child path)) := by
  have hsearched : (ctx.treeCandidates path).map Location.dir =
      ctx.trees.map fun tree => tree.dir.child path := by
    rw [treeCandidates, List.map_map]
    rfl
  rw [target, hlocal, if_neg Bool.false_ne_true, h, hsearched]

/-- **An import path that is not local is searched for along the plan.**  Its candidates are the
places of the plan.  If none is a directory, the source trees are reported as searched; otherwise
the first that is one is the answer, or the search fails there. -/
theorem locate_of_not_local (htext : files.root.SourcesAreText)
    (hvalid : ImportPath.validate path = .ok ()) (hlocal : ImportPath.isLocal path = false)
    (hup : .up ∉ sourceDir.components) :
    (ctx.candidates path sourceDir).map Location.place =
      ctx.searchPlan path sourceDir.components ∧
    ((∀ l ∈ ctx.candidates path sourceDir, files.isDir l.dir = false) →
      (ctx.locate files path sourceDir).result =
        .error (.notFound path sourceDir (ctx.trees.map fun tree => tree.dir.child path))) ∧
    ∀ before l after, ctx.candidates path sourceDir = before ++ l :: after →
      (∀ k ∈ before, files.isDir k.dir = false) → files.isDir l.dir = true →
      (ctx.IsPackage files l.dir → (ctx.locate files path sourceDir).result = .ok l) ∧
      (¬ ctx.IsPackage files l.dir →
        (ctx.locate files path sourceDir).result = .error (.noBuildableFiles path l.dir)) := by
  refine ⟨map_place_candidates hvalid hlocal hup, fun hnone => ?_,
    fun before l after hsplit hbefore hdir => ?_⟩
  · have hfind : (ctx.candidates path sourceDir).find? (fun l => files.isDir l.dir) = none :=
      List.find?_eq_none.mpr fun l hl => by simp [hnone l hl]
    rw [locate, hvalid]
    dsimp only
    rw [target_of_find?_eq_none hlocal hfind]
  · have hfind : (ctx.candidates path sourceDir).find? (fun l => files.isDir l.dir) = some l :=
      List.find?_eq_some_iff_append.mpr
        ⟨hdir, before, after, hsplit, fun k hk => by simp [hbefore k hk]⟩
    rw [locate, hvalid]
    dsimp only
    rw [target_of_find?_eq_some hlocal hfind]
    exact result_accept htext path hdir

/-- A toolchain and a workspace, and one import path that leads into both.  The workspace has the
package in a `vendor` directory one level above the importing one. -/
def vendoredInWorkspace : GoContext × FileTree :=
  ({ goroot := some ⟨"/go"⟩, gopath := [⟨"/go/"⟩, ⟨"/ws"⟩] },
    { cwd := []
      root := .dir
        [("go", .dir [("src", .dir [("dep", .dir [("dep.go", .file (.text "package dep\n"))])])]),
          ("ws", .dir [("src", .dir [("app", .dir
            [("vendor", .dir [("dep", .dir
              [("image.bin", .file .bytes), ("dep.go", .file (.text "package dep\n"))])]),
              ("cmd", .dir [])])])])] })

/-- The vendored package is found, two places before the one of the toolchain. -/
theorem locate_of_not_local_in_workspace :
    (vendoredInWorkspace.1.searchPlan "dep" (Path.components ⟨"/ws/src/app/cmd"⟩)).map
        (fun place => (place.importPath, place.isRoot)) =
      [("app/cmd/vendor/dep", false), ("app/vendor/dep", false), ("vendor/dep", false),
        ("dep", true), ("dep", false)] ∧
    (vendoredInWorkspace.1.locate vendoredInWorkspace.2 "dep" ⟨"/ws/src/app/cmd"⟩).result =
      .ok ⟨"app/vendor/dep", ⟨"/ws/src/app/vendor/dep"⟩, false⟩ := by
  have htext : vendoredInWorkspace.2.root.SourcesAreText := by
    have hbinary : ¬ sourceEnding <:+ "image.bin".toList := by decide
    simpa [vendoredInWorkspace] using hbinary
  have hsource : Constraint.ofSource "package dep\n" = .ok none := by
    have hheader : Constraint.header "package dep\n" = [] := by decide +kernel
    rw [Constraint.ofSource_eq, hheader]
    rfl
  have hpackage :
      vendoredInWorkspace.1.IsPackage vendoredInWorkspace.2 ⟨"/ws/src/app/vendor/dep"⟩ :=
    ⟨[("image.bin", .file .bytes), ("dep.go", .file (.text "package dep\n"))], rfl,
      ("dep.go", .file (.text "package dep\n")), by simp, "package dep\n", by decide +kernel,
      by decide +kernel, .inl hsource⟩
  have hvalid : ImportPath.validate "dep" = .ok () := by decide +kernel
  have hup : .up ∉ Path.components ⟨"/ws/src/app/cmd"⟩ := by decide +kernel
  obtain ⟨hplan, -, hfirst⟩ := locate_of_not_local htext hvalid (by decide +kernel) hup
  refine ⟨?_, ?_⟩
  · rw [← hplan]
    decide +kernel
  · exact (hfirst [⟨"app/cmd/vendor/dep", ⟨"/ws/src/app/cmd/vendor/dep"⟩, false⟩] _
      [⟨"vendor/dep", ⟨"/ws/src/vendor/dep"⟩, false⟩, ⟨"dep", ⟨"/go/src/dep"⟩, true⟩,
        ⟨"dep", ⟨"/ws/src/dep"⟩, false⟩]
      (by decide +kernel) (by decide +kernel) (by decide +kernel)).1 hpackage

end GoContext

end GoResolver
