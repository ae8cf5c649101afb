import GoResolver.Path
import GoResolver.Strategy

/-!
# Settings

The settings of the program with their defaults.  An option without a value leaves the choice to the
environment.
-/

namespace GoResolver

/-- The settings of completion sessions. -/
structure SuggestSettings where
  proposeBuiltins : Bool := true
  debug : Bool := false
  source : Bool := false
  deriving Repr, DecidableEq, Inhabited

/-- The options of a session with these settings. -/
def SuggestSettings.options (s : SuggestSettings) : SuggestOptions where
  proposeBuiltins := s.proposeBuiltins
  debug := s.debug
  source := s.source

/-- The settings of the build that packages are located for. -/
structure BuildSettings where
  /-- The toolchain's root. -/
  goroot : Option Path := none
  /-- The workspace trees. -/
  gopath : List Path := []
  /-- The target's operating system. -/
  goos : Option String := none
  /-- The target's architecture. -/
  goarch : Option String := none
  /-- Further tags that hold. -/
  buildTags : List String := []
  cgoEnabled : Bool := true
  /-- The toolchain's release. -/
  goVersion : Option String := none
  deriving Repr, DecidableEq, Inhabited

/-- All settings. -/
structure Settings where
  /-- The version of the settings' own layout. -/
  version : Nat := 1
  /-- The directory that holds the settings directory. -/
  workspaceRoot : Option Path := none
  debug : Bool := false
  suggest : SuggestSettings := {}
  build : BuildSettings := {}
  deriving Repr, DecidableEq, Inhabited

end GoResolver
