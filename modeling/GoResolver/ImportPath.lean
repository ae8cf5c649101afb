import GoResolver.ResolutionError
import GoResolver.Text.Quoted

/-!
# Import paths

An import path names a package with slashes between its elements.  A *local* import path starts with
`.` or `..` and is taken relative to the importing directory; every other one is looked up in source
trees.

`flaw?` finds what makes a path unusable.  The flaws are ranked: the empty path, the pseudo-package
`C`, a character that may not occur, a slash in front, and an element that is empty, `.` or `..` —
the last only in paths that are not local.
-/

namespace GoResolver.ImportPath

/-- Whether an import path is relative to the importing directory. -/
def isLocal (path : String) : Bool :=
  path == "." || path == ".." || (Text.after? "./".toList path.toList).isSome ||
    (Text.after? "../".toList path.toList).isSome

/-- What makes an import path unusable. -/
inductive Flaw where
  | empty
  | pseudoPackage
  | character (c : Char)
  | absolute
  | element (text : String)
  deriving Repr, DecidableEq

/-- The text that reports a flaw. -/
def Flaw.message : Flaw → String
  | .empty => "empty import path"
  | .pseudoPackage => "cgo pseudo-package has no source directory"
  | .character c => "invalid character " ++ Text.quotedOne c
  | .absolute => "absolute import paths are not allowed"
  | .element text => "invalid path element " ++ Text.quoted text

/-- The characters that may not occur: the backslash and the control characters. -/
def isForbidden (c : Char) : Bool :=
  c == '\\' || c.toNat < 0x20 || (0x7f ≤ c.toNat && c.toNat < 0xa0)

/-- The elements of an import path. -/
def elements (path : String) : List String :=
  (Text.pieces '/' path.toList).map String.ofList

/-- The elements that would not name an entry of a directory. -/
def isBadElement (element : String) : Bool :=
  element == "" || element == "." || element == ".."

/-- The first flaw of an import path. -/
def flaw? (path : String) : Option Flaw :=
  if path = "" then some .empty
  else if path = "C" then some .pseudoPackage
  else match path.toList.find? isForbidden with
  | some c => some (.character c)
  | none =>
    if path.toList.head? = some '/' then some .absolute
    else if isLocal path then none
    else ((elements path).find? isBadElement).map .element

/-- Refuses an import path with a flaw. -/
def validate (path : String) : Except ResolutionError Unit :=
  match flaw? path with
  | some flaw => .error (.invalidImportPath path flaw.message)
  | none => .ok ()

end GoResolver.ImportPath
