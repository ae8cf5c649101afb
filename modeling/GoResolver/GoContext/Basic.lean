import GoResolver.Host
import GoResolver.Settings.Basic
import GoResolver.Text.Blank
import GoResolver.Text.Number

/-!
# The build context of a Go toolchain

A `GoContext` is a toolchain root, a list of workspace trees, and the target that packages are built
for.  This module says which build tags hold for a target, and how a context is made from settings:
a setting that has no value falls back to the environment variable of its name, and then to the
host.
-/

namespace GoResolver

/-- The release that is assumed when nothing names one. -/
def GoContext.defaultRelease : Nat := 25

/-- Source trees and a build target. -/
structure GoContext where
  /-- The toolchain's root. -/
  goroot : Option Path := none
  /-- The workspace trees. -/
  gopath : List Path := []
  /-- The target's operating system. -/
  goos : String := Host.goos
  /-- The target's architecture. -/
  goarch : String := Host.goarch
  /-- Further tags that hold. -/
  buildTags : List String := []
  cgoEnabled : Bool := true
  /-- The newest release whose tag holds. -/
  release : Nat := GoContext.defaultRelease
  deriving Repr, DecidableEq, Inhabited

namespace GoContext

/-! ## 1. Tags -/

/-- The operating systems that a file name can ask for. -/
def knownSystems : List String :=
  ["aix", "android", "darwin", "dragonfly", "freebsd", "hurd", "illumos", "ios", "js", "linux",
    "nacl", "netbsd", "openbsd", "plan9", "solaris", "wasip1", "windows", "zos"]

/-- The architectures that a file name can ask for. -/
def knownArchitectures : List String :=
  ["386", "amd64", "amd64p32", "arm", "armbe", "arm64", "arm64be", "loong64", "mips", "mipsle",
    "mips64", "mips64le", "mips64p32", "mips64p32le", "ppc", "ppc64", "ppc64le", "riscv",
    "riscv64", "s390", "s390x", "sparc", "sparc64", "wasm"]

/-- The operating systems with the tag `unix`. -/
def unixSystems : List String :=
  ["aix", "android", "darwin", "dragonfly", "freebsd", "hurd", "illumos", "ios", "linux",
    "netbsd", "openbsd", "solaris"]

/-- Whether the target's operating system goes by a name.  Three systems also go by the name of the
system they descend from. -/
def matchesSystem (ctx : GoContext) (name : String) : Bool :=
  name == ctx.goos || (name == "linux" && ctx.goos == "android") ||
    (name == "solaris" && ctx.goos == "illumos") || (name == "darwin" && ctx.goos == "ios")

/-- Whether a build tag holds. -/
def satisfies (ctx : GoContext) (tag : String) : Bool :=
  if ctx.matchesSystem tag || tag == ctx.goarch || tag == "gc" then true
  else if tag = "unix" then unixSystems.contains ctx.goos
  else if tag = "cgo" then ctx.cgoEnabled
  else match Text.after? "go1.".toList tag.toList with
  | some minor =>
    match Text.word32? minor with
    | some k => 1 ≤ k && k ≤ ctx.release
    | none => false
  | none => ctx.buildTags.contains tag

/-! ## 2. Releases -/

/-- The `N` of a version `1.N`, which may stand after `go` and have anything but a digit after it.
-/
def releaseOf? (version : List Char) : Option Nat :=
  let s := Text.trim version
  match Text.after? "1.".toList ((Text.after? "go".toList s).getD s) with
  | none => none
  | some rest => (Text.natural? (rest.takeWhile Text.isDigit)).filter (· < Text.word32Limit)

/-- The release that a toolchain's own `VERSION` file names in its first line. -/
def toolchainRelease? (files : FileTree) (goroot : Path) : Option Nat :=
  match files.readText (goroot.child "VERSION") with
  | .error _ => none
  | .ok text => (Text.lines text.toList).head?.bind releaseOf?

/-! ## 3. From settings -/

/-- The workspace trees that a list of directories between colons names. -/
def pathList (value : String) : List Path :=
  (((Text.pieces ':' value.toList).filter (· ≠ [])).map String.ofList).map Path.mk

/-- The workspace trees when the settings name none. -/
def defaultGopath (host : Host) : List Path :=
  match host.env? "GOPATH" with
  | some value => pathList value
  | none =>
    match host.home? with
    | some home => [home.child "go"]
    | none => []

/-- The context that build settings describe on a host. -/
def ofSettings (host : Host) (s : BuildSettings) : GoContext :=
  let goroot := s.goroot <|> (host.env? "GOROOT").map Path.mk
  { goroot
    gopath := if s.gopath.isEmpty then defaultGopath host else s.gopath
    goos := (s.goos <|> host.env? "GOOS").getD Host.goos
    goarch := (s.goarch <|> host.env? "GOARCH").getD Host.goarch
    buildTags := s.buildTags
    cgoEnabled := s.cgoEnabled
    release :=
      ((s.goVersion.bind fun v => releaseOf? v.toList) <|>
        goroot.bind (toolchainRelease? host.files)).getD defaultRelease }

end GoContext

end GoResolver
