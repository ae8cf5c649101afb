import GoResolver.FileTree

/-!
# The machine a command runs on

A command sees files, environment variables and what the system knows about its user, and all three
are plain data here.  Variables are listed in the order of the environment; where two of them mean
the same setting, that order decides.
-/

namespace GoResolver

/-- The files and the environment variables that a process sees. -/
structure Host where
  files : FileTree
  environment : List (String × String) := []
  /-- The home directory that the system's user database has for the user. -/
  accountHome : Option Path := none
  deriving Inhabited

namespace Host

/-- The value of an environment variable, if it is set. -/
def env? (h : Host) (name : String) : Option String := h.environment.lookup name

/-- The user's home directory: the one that a variable names, or else the one of the account. -/
def home? (h : Host) : Option Path :=
  match h.env? "HOME" with
  | none | some "" => h.accountHome
  | some dir => some ⟨dir⟩

/-- The operating system, in the toolchain's words. -/
def goos : String := "linux"

/-- The architecture, in the toolchain's words. -/
def goarch : String := "amd64"

end Host

end GoResolver
