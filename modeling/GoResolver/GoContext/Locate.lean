import GoResolver.BuildContext
import GoResolver.Constraint.Header
import GoResolver.GoContext.FileName
import GoResolver.ImportPath

/-!
# Where a Go import leads

The source trees of a context are the `src` directories of the toolchain root and of the workspace
trees, in this order.  An import path that is not local has a list of candidate directories:

* when a source tree contains the importing directory, the `vendor` directories between that
  directory and the tree, innermost first (`vendorCandidates`);
* then the directory of that name in each source tree (`treeCandidates`).

The first candidate that is a directory decides, whatever it holds (`target`).  A local import path
leads to exactly one directory.

A directory is a package when one of its files builds for the target: its name does, and the
constraint in its header, if it has one, holds.  `examine` looks through the files in the
directory's order and stops at the first that builds or cannot be read; a file whose header is
malformed is skipped and logged.
-/

namespace GoResolver.GoContext

/-! ## 1. Source trees -/

/-- A directory that import paths are looked up in. -/
structure SourceTree where
  dir : Path
  /-- Whether it is the toolchain's own tree. -/
  isRoot : Bool
  deriving Repr, DecidableEq

/-- The tree below the toolchain root. -/
def rootTree? (ctx : GoContext) : Option SourceTree :=
  ctx.goroot.map fun root => ⟨root.child "src", true⟩

/-- The trees below the workspace roots; one that is the toolchain root again is left out. -/
def workspaceTrees (ctx : GoContext) : List SourceTree :=
  (ctx.gopath.filter fun p => !ctx.goroot.any fun root => decide (root.Same p)).map fun p =>
    ⟨p.child "src", false⟩

/-- The source trees in the order in which they are searched. -/
def trees (ctx : GoContext) : List SourceTree := ctx.rootTree?.toList ++ ctx.workspaceTrees

/-- The first source tree that contains a directory, and the directory's path in it. -/
def enclosing? (ctx : GoContext) (dir : Path) : Option (SourceTree × Path) :=
  ctx.trees.findSome? fun tree => (dir.relativeTo? tree.dir).map fun rest => (tree, rest)

/-! ## 2. Candidates -/

/-- The package in the `vendor` directory of a tree's subdirectory. -/
def vendored (tree : SourceTree) (sub : Path) (path : String) : Location where
  importPath :=
    if sub.slashNames = "" then "vendor/" ++ path else sub.slashNames ++ "/vendor/" ++ path
  dir := ((tree.dir.join sub).child "vendor").child path
  isRoot := tree.isRoot

/-- The vendored packages that an importing directory sees, innermost first. -/
def vendorCandidates (ctx : GoContext) (path : String) (sourceDir : Path) : List Location :=
  match ctx.enclosing? sourceDir with
  | none => []
  | some (tree, rest) => rest.ancestors.map fun sub => vendored tree sub path

/-- The package of that name in each source tree. -/
def treeCandidates (ctx : GoContext) (path : String) : List Location :=
  ctx.trees.map fun tree => ⟨path, tree.dir.child path, tree.isRoot⟩

/-- All candidates in the order in which they are tried. -/
def candidates (ctx : GoContext) (path : String) (sourceDir : Path) : List Location :=
  ctx.vendorCandidates path sourceDir ++ ctx.treeCandidates path

/-- The directory that a local import path leads to, as a location. -/
def localLocation (ctx : GoContext) (path : String) (dir : Path) : Location :=
  match ctx.enclosing? dir with
  | some (tree, rest) => ⟨rest.slashNames, dir, tree.isRoot⟩
  | none => ⟨path, dir, false⟩

/-- The directory that a valid import path leads to, whatever it holds. -/
def target (ctx : GoContext) (files : FileTree) (path : String) (sourceDir : Path) :
    Except ResolutionError Location :=
  if ImportPath.isLocal path then
    let dir := (sourceDir.child path).normalize
    if files.isDir dir then .ok (ctx.localLocation path dir)
    else .error (.notFound path sourceDir [dir])
  else
    match (ctx.candidates path sourceDir).find? fun l => files.isDir l.dir with
    | some location => .ok location
    | none => .error (.notFound path sourceDir ((ctx.treeCandidates path).map Location.dir))

/-! ## 3. Files that build -/

/-- What looking through a directory's files found. -/
structure Findings where
  /-- Whether some file builds, or the file that could not be read. -/
  verdict : Except ResolutionError Bool
  /-- The files that were skipped because their header is malformed, with what is wrong. -/
  skipped : List (Path × Constraint.Malformed) := []

/-- Looks through the names in a directory for a file that builds. -/
def examine (ctx : GoContext) (files : FileTree) (dir : Path) : List String → Findings
  | [] => { verdict := .ok false }
  | name :: rest =>
    if !(files.isFile (dir.child name) && ctx.isBuildableName name) then examine ctx files dir rest
    else match files.readText (dir.child name) with
    | .error e => { verdict := .error (.io (dir.child name) e.message) }
    | .ok source =>
      match Constraint.ofSource source with
      | .ok none => { verdict := .ok true }
      | .ok (some c) =>
        if c.holds ctx.satisfies then { verdict := .ok true } else examine ctx files dir rest
      | .error malformed =>
        let others := examine ctx files dir rest
        { others with skipped := (dir.child name, malformed) :: others.skipped }

/-- The log record of a skipped file. -/
def skippedRecord (p : Path × Constraint.Malformed) : LogRecord :=
  .debug ("skipping " ++ p.1.text ++ ": " ++ p.2.message)

/-- Accepts a location when its directory is a package. -/
def accept (ctx : GoContext) (files : FileTree) (path : String) (location : Location) : Lookup :=
  match files.list location.dir with
  | .error e => { result := .error (.io location.dir e.message) }
  | .ok entries =>
    let findings := ctx.examine files location.dir (entries.map Prod.fst)
    { result :=
        match findings.verdict with
        | .error e => .error e
        | .ok true => .ok location
        | .ok false => .error (.noBuildableFiles path location.dir)
      log := findings.skipped.map skippedRecord }

/-! ## 4. The build context -/

/-- Places an import path, seen from the directory that imports it. -/
def locate (ctx : GoContext) (files : FileTree) : BuildContext := fun path sourceDir =>
  match ImportPath.validate path with
  | .error e => { result := .error e }
  | .ok () =>
    match ctx.target files path sourceDir with
    | .error e => { result := .error e }
    | .ok location => ctx.accept files path location

end GoResolver.GoContext
