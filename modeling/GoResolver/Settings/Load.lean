import GoResolver.Host
import GoResolver.Settings.Library
import GoResolver.Settings.Typed

/-!
# Loading settings

Settings come from three layers: the defaults, a settings file over them, and the environment over
both.  A value that is at fault belongs to the uppermost layer that has a value at its place.

A settings file with a relative path is looked up in the current directory and then in each
directory above it.  Without a path, the settings file of the workspace is taken: the workspace is
the nearest directory, from the current one upwards, that holds a settings directory, and it is the
workspace's root for settings that name none.
-/

namespace GoResolver

/-! ## 1. Finding the file -/

/-- The name of the settings directory. -/
def settingsDirectory : Path := ⟨".gosuggest"⟩

/-- The settings file of a workspace, seen from the workspace. -/
def settingsFile : Path := settingsDirectory.child "settings.toml"

namespace Host

/-- The current directory. -/
def currentDir (h : Host) : Path := ⟨"/" ++ Path.slashed h.files.cwd⟩

/-- The file that a settings path leads to, if there is one. -/
def findSettings? (h : Host) (path : Path) : Option Path :=
  if path.isAbsolute then if h.files.isFile path then some path else none
  else (h.currentDir.ancestors.map (·.join path)).find? h.files.isFile

/-- The nearest directory that holds a settings directory. -/
def workspace? (h : Host) : Option Path :=
  h.currentDir.ancestors.find? fun dir => h.files.isDir (dir.join settingsDirectory)

end Host

/-! ## 2. Layers -/

/-- Where a value comes from. -/
inductive SettingsSource where
  | defaults
  | file (path : Path)
  | environment
  deriving Repr, DecidableEq

/-- Why settings cannot be loaded. -/
inductive SettingsError where
  /-- The file is not text. -/
  | unreadable (path : Path) (reason : SystemError)
  /-- The file is not in the format, defines something twice, or uses a name that no file may have.
  -/
  | malformed (path : Path)
  /-- A value is at fault. -/
  | invalid (source : SettingsSource) (error : SettingError)

/-- The defaults as a layer.  An option without a value has no entry. -/
def Settings.defaultLayer : Layer :=
  [("version", .unsigned 1),
    ("debug", .boolean false),
    ("suggest", .table
      [("propose_builtins", .boolean true), ("debug", .boolean false), ("source", .boolean false)]),
    ("build", .table
      [("gopath", .list []), ("build_tags", .list []), ("cgo_enabled", .boolean true)])]

/-- The source that a value at a place comes from. -/
def SettingsSource.ofPlace (file : Option Path) (fileLayer environment : Layer)
    (place : List Setting.Step) : SettingsSource :=
  if ((Setting.table environment).at? place).isSome then .environment
  else match file with
    | some path => if ((Setting.table fileLayer).at? place).isSome then .file path else .defaults
    | none => .defaults

/-! ## 3. Loading -/

namespace SettingsLibrary

variable (lib : SettingsLibrary)

/-- The layer of a settings file.  The file itself is no wrapper, so reserved names mean nothing
special at its top. -/
def fileLayer (files : FileTree) (path : Path) : Except SettingsError Layer :=
  match files.readText path with
  | .error e => .error (.unreadable path e)
  | .ok text =>
    match (lib.parse? text).bind Setting.ofTomlEntries? with
    | none => .error (.malformed path)
    | some layer => .ok layer

/-- The settings in a file and an environment. -/
def ofLayers (file : Option Path) (fileLayer environment : Layer) :
    Except SettingsError Settings :=
  match Setting.asSettings (lib.stack (lib.stack Settings.defaultLayer fileLayer) environment) with
  | .ok s => .ok s
  | .error e => .error (.invalid (.ofPlace file fileLayer environment e.place) e)

/-- Loads the settings with the settings file at a path. -/
def loadFrom (h : Host) (path : Path) : Except SettingsError Settings :=
  let environment := lib.layer h.environment
  match h.findSettings? path with
  | none => lib.ofLayers none [] environment
  | some file => do
    let layer ← lib.fileLayer h.files file
    lib.ofLayers (some file) layer environment

/-- Loads the settings of the workspace. -/
def load (h : Host) : Except SettingsError Settings := do
  let workspace := h.workspace?
  let path := match workspace with
    | some dir => (dir.join settingsDirectory).child "settings.toml"
    | none => settingsFile
  let s ← lib.loadFrom h path
  .ok { s with workspaceRoot := s.workspaceRoot <|> workspace }

end SettingsLibrary

namespace Settings

/-- Loads the settings with the settings file at a path, as the program does. -/
def loadFrom (h : Host) (path : Path) : Except SettingsError Settings :=
  SettingsLibrary.standard.loadFrom h path

/-- Loads the settings of the workspace, as the program does. -/
def load (h : Host) : Except SettingsError Settings := SettingsLibrary.standard.load h

end Settings

end GoResolver
