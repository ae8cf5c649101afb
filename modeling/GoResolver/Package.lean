import GoResolver.Path

/-!
# Packages

A `Package` is what a strategy makes of an import path; a complete one is never changed again.  A
`Location` is what a build context says about an import path: its canonical form, the directory that
holds it, and whether it belongs to the toolchain's own distribution.
-/

namespace GoResolver

/-- The type information of a package. -/
structure Package where
  path : String
  name : String
  /-- Whether everything the package depends on was loaded too. -/
  complete : Bool := true
  members : List String := []
  deriving Repr, DecidableEq, Inhabited

/-- The import path of the pseudo-package for low-level operations. -/
def lowLevelPath : String := "unsafe"

/-- The pseudo-package for low-level operations, which the language itself provides. -/
def lowLevelPackage : Package where
  path := lowLevelPath
  name := "unsafe"
  members :=
    ["Add", "Alignof", "Offsetof", "Pointer", "Sizeof", "Slice", "SliceData", "String",
      "StringData"]

/-- Where a build context places an import path. -/
structure Location where
  /-- The canonical import path. -/
  importPath : String
  /-- The directory that holds the sources. -/
  dir : Path
  /-- Whether the package belongs to the toolchain's own distribution. -/
  isRoot : Bool
  deriving Repr, DecidableEq

/-- An import mode, which strategies receive and nothing else looks at. -/
structure ImportMode where
  bits : Nat := 0
  deriving Repr, DecidableEq, Inhabited

end GoResolver
