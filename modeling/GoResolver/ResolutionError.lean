import GoResolver.Path
import GoResolver.Strategy

/-!
# Why an import cannot be resolved

A `ResolutionError` names the cause; its code, its message and the advice that goes with it are
functions of the cause.
-/

namespace GoResolver

/-- Why an import cannot be resolved. -/
inductive ResolutionError where
  /-- The import path is unusable as text. -/
  | invalidImportPath (path reason : String)
  /-- No source tree holds the package. -/
  | notFound (path : String) (sourceDir : Path) (searched : List Path)
  /-- The package's directory holds no file that builds for the target. -/
  | noBuildableFiles (path : String) (dir : Path)
  /-- The system failed to read a file or a directory. -/
  | io (path : Path) (reason : String)
  /-- The strategy could not produce type information. -/
  | importFailed (path : String) (sourceDir : Path) (strategy : StrategyKind) (cause : String)
  deriving Repr, DecidableEq

namespace ResolutionError

/-- The stable code of a cause. -/
def code : ResolutionError → String
  | .invalidImportPath .. => "RESOLUTION_INVALID_IMPORT_PATH"
  | .notFound .. => "RESOLUTION_NOT_FOUND"
  | .noBuildableFiles .. => "RESOLUTION_NO_BUILDABLE_FILES"
  | .io .. => "RESOLUTION_IO"
  | .importFailed .. => "RESOLUTION_IMPORT_FAILED"

/-- The list of directories that were searched. -/
def searchedText : List Path → String
  | [] => "no source roots configured"
  | searched => String.intercalate ", " (searched.map Path.text)

/-- The message for a cause. -/
def message : ResolutionError → String
  | .invalidImportPath path reason => "invalid import path '" ++ path ++ "': " ++ reason
  | .notFound path sourceDir searched =>
    "cannot find package '" ++ path ++ "' from '" ++ sourceDir.text ++ "' (searched: " ++
      searchedText searched ++ ")"
  | .noBuildableFiles path dir =>
    "no buildable Go source files in '" ++ dir.text ++ "' for '" ++ path ++ "'"
  | .io path reason => "io error at '" ++ path.text ++ "': " ++ reason
  | .importFailed path sourceDir strategy cause =>
    strategy.word ++ " importer failed for '" ++ path ++ "' from '" ++ sourceDir.text ++ "': " ++
      cause

/-- The import path that a cause refers to, if it refers to one. -/
def importPath? : ResolutionError → Option String
  | .invalidImportPath path _ | .notFound path .. | .noBuildableFiles path _
  | .importFailed path .. => some path
  | .io .. => none

/-- What a user can do about a cause. -/
def advice : ResolutionError → List String
  | .invalidImportPath .. =>
    ["Check the import statement for typos or stray characters",
      "Import paths use forward slashes and must not be absolute"]
  | .notFound .. =>
    ["Check that GOROOT and GOPATH point at the right trees",
      "Set [build] goroot/gopath in .gosuggest/settings.toml",
      "Run 'gosuggest locate <import>' to see where the package is searched"]
  | .noBuildableFiles .. =>
    ["Check GOOS/GOARCH and build tags in [build]",
      "Files ending in _test.go or starting with _ or . are never built"]
  | .io .. =>
    ["Check permissions on the source roots",
      "Ensure the directory was not removed while resolving"]
  | .importFailed .. =>
    ["Rebuild the package so export data is current",
      "Enable source mode ([suggest] source = true) to type-check from source"]

end ResolutionError

end GoResolver
