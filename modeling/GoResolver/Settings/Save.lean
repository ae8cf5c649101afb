import GoResolver.GoContext.Basic
import GoResolver.Settings.Load

/-!
# Saving settings

Settings are saved as a settings file that says all of them; only options without a value are left
out.  A new settings file is a template with the defaults and an explanation of each setting.
-/

namespace GoResolver

/-! ## 1. The text of settings -/

/-- Settings as a document. -/
def Settings.draft (s : Settings) : Toml.Draft where
  fields := Toml.present
    [("version", some (.natural s.version)),
      ("workspace_root", s.workspaceRoot.map fun p => .text p.text),
      ("debug", some (.truth s.debug))]
  tables :=
    [("suggest", Toml.present
        [("propose_builtins", some (.truth s.suggest.proposeBuiltins)),
          ("debug", some (.truth s.suggest.debug)), ("source", some (.truth s.suggest.source))]),
      ("build", Toml.present
        [("goroot", s.build.goroot.map fun p => .text p.text),
          ("gopath", some (.texts (s.build.gopath.map Path.text))),
          ("goos", s.build.goos.map .text), ("goarch", s.build.goarch.map .text),
          ("build_tags", some (.texts s.build.buildTags)),
          ("cgo_enabled", some (.truth s.build.cgoEnabled)),
          ("go_version", s.build.goVersion.map .text)])]

/-- The lines of the template. -/
def Settings.templateLines : List String :=
  ["# gosuggest configuration",
    "",
    "# Version of the configuration schema",
    "version = 1",
    "",
    "# Global debug mode (debug-level logging)",
    "debug = false",
    "",
    "[suggest]",
    "# Propose builtin identifiers such as len, append and make",
    "propose_builtins = true",
    "",
    "# Trace importer and completion engine activity",
    "debug = false",
    "",
    "# Type-check imports from source instead of reading compiled export data.",
    "# Slower, but works without an installed package cache.",
    "source = false",
    "",
    "[build]",
    "# Toolchain root. Defaults to $GOROOT.",
    "# goroot = \"/usr/local/go\"",
    "",
    "# Workspace trees. Defaults to $GOPATH, then ~/go.",
    "gopath = []",
    "",
    "# Target platform. Defaults to $GOOS/$GOARCH, then the host (" ++ Host.goos ++ "/" ++
      Host.goarch ++ ").",
    "# goos = \"" ++ Host.goos ++ "\"",
    "# goarch = \"" ++ Host.goarch ++ "\"",
    "",
    "# Extra tags satisfied by //go:build constraints",
    "build_tags = []",
    "",
    "cgo_enabled = true",
    "",
    "# Newest release whose go1.N tags are satisfied. Defaults to GOROOT/VERSION.",
    "# go_version = \"1." ++ toString GoContext.defaultRelease ++ "\""]

/-- The text of a new settings file. -/
def Settings.template : String := String.join (templateLines.map (· ++ "\n"))

/-! ## 2. Writing files -/

/-- Why settings cannot be written. -/
inductive SaveError where
  /-- The path cannot be that of a file. -/
  | noParent
  /-- There is a settings file already. -/
  | alreadyExists
  | system (e : SystemError)
  deriving Repr, DecidableEq

/-- The message for an error. -/
def SaveError.message : SaveError → String
  | .noParent => "Invalid path"
  | .alreadyExists => "Configuration file already exists. Use --force to overwrite"
  | .system e => e.message

/-- Makes the directories above a file and writes it. -/
def FileTree.writeWithParents (t : FileTree) (dir file : Path) (text : String) :
    Except SaveError FileTree :=
  match t.makeDirs dir with
  | .error e => .error (.system e)
  | .ok t =>
    match t.writeText file text with
    | .error e => .error (.system e)
    | .ok t => .ok t

/-- Saves settings to a file. -/
def SettingsLibrary.save (lib : SettingsLibrary) (s : Settings) (files : FileTree) (path : Path) :
    Except SaveError FileTree :=
  match path.parent? with
  | none => .error .noParent
  | some dir => files.writeWithParents dir path (lib.print s.draft)

/-- Saves settings to a file, as the program does. -/
def Settings.save (s : Settings) (files : FileTree) (path : Path) : Except SaveError FileTree :=
  SettingsLibrary.standard.save s files path

/-- Makes a new settings file in the current directory, or again when forced to. -/
def Settings.initialize (files : FileTree) (force : Bool) : Except SaveError FileTree :=
  if !force && files.contains settingsFile then .error .alreadyExists
  else files.writeWithParents settingsDirectory settingsFile template

end GoResolver
