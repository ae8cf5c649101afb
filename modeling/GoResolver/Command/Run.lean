import GoResolver.Command.Arguments
import GoResolver.Command.Help
import GoResolver.GoContext.Locate
import GoResolver.Json.Writer
import GoResolver.Settings.Save

/-!
# Running a command

A run takes a machine and arguments to a `Report`: an exit code, what is written to the two outputs,
and the files afterwards.  The settings are loaded before any command starts, so a command runs only
when they are in order.
-/

namespace GoResolver

/-! ## 1. Settings that cannot be loaded -/

/-- The message for an error, seen from the current directory. -/
def SettingsError.message (currentDir : Path) : SettingsError → String
  | .unreadable path reason => reason.message ++ "\n in " ++ fileText path
  | .malformed path => "TOML parse error\n in " ++ fileText path
  | .invalid source e =>
    let steps := e.place.map Setting.Step.text
    e.fault.message ++
      match source with
      | .defaults => ""
      | .file path =>
        " for key " ++ Text.quoted (String.intercalate "." ("default" :: steps)) ++ " in " ++
          fileText path
      | .environment =>
        " for key " ++ Text.quoted (String.intercalate "." (steps.map upper)) ++
          " in `GS_` environment variable(s)"
where
  /-- How a settings file is named. -/
  fileText (path : Path) : String := (path.shownFrom currentDir).text ++ " TOML file"
  /-- A name as it stands in the name of a variable. -/
  upper (name : String) : String := String.ofList (name.toList.map Char.toUpper)

namespace Command

/-! ## 2. Reports -/

/-- What a run leaves behind. -/
structure Report where
  code : Nat := 0
  stdout : String := ""
  stderr : String := ""
  files : FileTree

/-- The exit code of a run that failed. -/
def failureCode : Nat := 1

/-- The exit code of a run with arguments that cannot be understood. -/
def usageCode : Nat := 2

/-- The report of a run that failed with a message. -/
def Report.failure (files : FileTree) (message : String) : Report where
  code := failureCode
  stderr := "Error: " ++ message ++ "\n"
  files := files

/-! ## 3. Commands -/

/-- Makes a settings file. -/
def runInit (h : Host) (force : Bool) : Report :=
  match Settings.initialize h.files force with
  | .error e => .failure h.files ("Failed to create configuration: " ++ e.message)
  | .ok files =>
    { stdout := (if force then "Overwrote" else "Created default") ++ " configuration at: " ++
        settingsFile.text ++ "\n"
      files }

/-- A location in words. -/
def locationText (l : Location) : String :=
  "import path: " ++ l.importPath ++ "\ndirectory:   " ++ l.dir.text ++ "\nroot:        " ++
    toString l.isRoot ++ "\n"

/-- A location as JSON. -/
def locationJson (l : Location) : JsonValue :=
  .ofMembers [("import_path", .ofString l.importPath), ("dir", .ofString l.dir.text),
    ("is_root", .bool l.isRoot)]

/-- An error in words, with advice. -/
def errorText (e : ResolutionError) : String :=
  "Error: " ++ e.message ++ "\n" ++ String.join (e.advice.map fun a => "  - " ++ a ++ "\n")

/-- An error as JSON. -/
def errorJson (e : ResolutionError) : JsonValue :=
  .ofMembers [("error", .ofString e.message), ("status", .ofString e.code)]

/-- The lines of a log, when debugging. -/
def logText (debug : Bool) (log : List LogRecord) : String :=
  if debug then String.join (log.map LogRecord.line) else ""

/-- Says where an import path leads. -/
def runLocate (h : Host) (build : BuildSettings) (debug : Bool) (importPath : String) (dir : Path)
    (json : Bool) : Report :=
  let lookup := (GoContext.ofSettings h build).locate h.files importPath dir
  match lookup.result with
  | .ok l =>
    { stdout := if json then (locationJson l).pretty 0 ++ "\n" else locationText l
      stderr := logText debug lookup.log
      files := h.files }
  | .error e =>
    { code := failureCode
      stdout := if json then (errorJson e).pretty 0 ++ "\n" else ""
      stderr := logText debug lookup.log ++ errorText e
      files := h.files }

section

variable (lib : SettingsLibrary)

/-- The settings that a run works with. -/
def Invocation.settings (i : Invocation) (h : Host) : Except SettingsError Settings :=
  match i.config with
  | some path => lib.loadFrom h path
  | none => lib.load h

/-- Runs what the arguments asked for. -/
def Invocation.run (i : Invocation) (h : Host) : Report :=
  match i.settings lib h with
  | .error e => .failure h.files ("Configuration error: " ++ e.message h.currentDir)
  | .ok s =>
    match i.action with
    | .init force => runInit h force
    | .config => { stdout := lib.print s.draft, files := h.files }
    | .locate importPath dir json =>
      runLocate h s.build (i.debug || s.debug) importPath dir json

/-- Runs the program with its arguments and a choice of the functions that settings are read and
written with. -/
def runWith (h : Host) (args : List String) : Report :=
  match Invocation.read args with
  | .ok i => i.run lib h
  | .error (.help t) => { stdout := t.helpText, files := h.files }
  | .error .version => { stdout := versionText, files := h.files }
  | .error .usage =>
    { code := usageCode
      stderr := "error: the arguments cannot be understood\n\nUsage: " ++ Topic.program.usage ++
        "\n\nFor more information, try '--help'.\n"
      files := h.files }

end

/-- Runs the program with its arguments. -/
def run (h : Host) (args : List String) : Report := runWith .standard h args

end Command

end GoResolver
