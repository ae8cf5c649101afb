import GoResolver.Log
import GoResolver.Package
import GoResolver.ResolutionError

/-!
# Build contexts

A build context places import paths: seen from a source directory, an import path has a `Location`
or a `ResolutionError`.  It may leave log records while it looks.  For a fixed environment its
answer is a function of the import path and the source directory, and that is what `BuildContext`
says.
-/

namespace GoResolver

/-- What a build context answers, and what it logged on the way. -/
structure Lookup where
  result : Except ResolutionError Location
  log : List LogRecord := []

/-- A build environment: where import paths lead, seen from a source directory. -/
abbrev BuildContext := (importPath : String) → (sourceDir : Path) → Lookup

end GoResolver
