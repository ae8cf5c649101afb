import GoResolver.Command.Run

/-!
# The program

The library decides what a command does; this module only fetches what it looks at.  Before the run
it takes a picture of the files that the run can reach: settings files in and above the current
directory, the toolchain's version file, and the directories that an import may lead to.  The first
two tell where those directories are, so the picture is taken in two steps.  After the run a
settings file that was made is written out.
-/

namespace GoResolver.Program

/-- The names on the way to a path from the root. -/
def place (currentDir path : Path) : List String := (currentDir.join path).normalize.names

/-- The picture with one more node in it. -/
def withNode (t : FileTree) (place : List String) (node : Node) : FileTree :=
  { t with root := t.root.put place node }

/-- Takes up a file, or a directory without what it holds. -/
def takeNode (currentDir path : Path) (t : FileTree) : IO FileTree := do
  let file := (← IO.currentDir) / path.text
  let names := place currentDir path
  if ← file.isDir then
    return if (t.root.get? names).isSome then t else withNode t names (.dir [])
  else if ← file.pathExists then
    return withNode t names (.file (Content.ofBytes (← IO.FS.readBinFile file)))
  else
    return t

/-- Takes up a directory with its files. -/
def takeDirectory (currentDir path : Path) (t : FileTree) : IO FileTree := do
  let dir := (← IO.currentDir) / path.text
  if ← dir.isDir then
    let mut t ← takeNode currentDir path t
    for entry in ← dir.readDir do
      t ← takeNode currentDir (path.child entry.fileName) t
    return t
  else
    takeNode currentDir path t

/-- Takes up the settings files that a run may read. -/
def takeSettings (currentDir : Path) (config : Option Path) (t : FileTree) : IO FileTree := do
  let mut t := t
  for dir in currentDir.ancestors do
    for path in [settingsDirectory, settingsFile] ++ config.toList do
      t ← takeNode currentDir (dir.join path) t
  return t

/-- Takes up the directories that an import may lead to. -/
def takeImport (h : Host) (i : Command.Invocation) : IO FileTree := do
  match i.action, i.settings .standard h with
  | .locate importPath dir _, .ok s =>
    let version := (s.build.goroot <|> (h.env? "GOROOT").map Path.mk).map (·.child "VERSION")
    let mut t := h.files
    for path in version.toList do
      t ← takeNode h.currentDir path t
    let ctx := GoContext.ofSettings h s.build
    let near := (dir.child importPath).normalize :: (ctx.candidates importPath dir).map Location.dir
    for path in near do
      t ← takeDirectory h.currentDir path t
    return t
  | _, _ => return h.files

/-- The text of a file, or nothing where there is none. -/
def textOf (file : String) : IO (List Char) := do
  try
    return ((String.fromUTF8? (← IO.FS.readBinFile file)).getD "").toList
  catch _ =>
    return []

/-- The variables of the process. -/
def environment : IO (List (String × String)) := do
  return (Text.pieces '\x00' (← textOf "/proc/self/environ")).filterMap fun piece =>
    match piece.takeWhile (· ≠ '='), piece.dropWhile (· ≠ '=') with
    | name, '=' :: value => some (String.ofList name, String.ofList value)
    | _, _ => none

/-- The number of the user that the status of a process names. -/
def userIn (status : List Char) : Option (List Char) :=
  (Text.pieces '\n' status).findSome? fun line =>
    match Text.words line with
    | label :: user :: _ => if label = "Uid:".toList then some user else none
    | _ => none

/-- The home directory that a list of accounts has for a user. -/
def homeIn (accounts user : List Char) : Option Path :=
  (Text.pieces '\n' accounts).findSome? fun line =>
    match Text.pieces ':' line with
    | [_, _, number, _, _, home, _] => if number = user then some ⟨String.ofList home⟩ else none
    | _ => none

/-- The home directory of the account that the process runs under. -/
def accountHome : IO (Option Path) := do
  let accounts ← textOf "/etc/passwd"
  return (userIn (← textOf "/proc/self/status")).bind (homeIn accounts)

/-- The machine as far as the arguments can reach. -/
def machine (args : List String) : IO Host := do
  let cwd := Path.names ⟨(← IO.currentDir).toString⟩
  let start : FileTree := { root := (Node.dir []).put cwd (.dir []), cwd }
  let h : Host := { files := start, environment := ← environment, accountHome := ← accountHome }
  match Command.Invocation.read args with
  | .error _ => return h
  | .ok i =>
    let h := { h with files := ← takeSettings h.currentDir i.config h.files }
    return { h with files := ← takeImport h i }

/-- Writes a settings file that a run made. -/
def writeSettings (before after : FileTree) : IO Unit := do
  match after.readText settingsFile with
  | .error _ => return
  | .ok text =>
    match before.readText settingsFile with
    | .ok old => if old ≠ text then IO.FS.writeFile settingsFile.text text
    | .error _ =>
      IO.FS.createDirAll settingsDirectory.text
      IO.FS.writeFile settingsFile.text text

end GoResolver.Program

open GoResolver in
/-- Runs the program. -/
def main (args : List String) : IO UInt32 := do
  let h ← Program.machine args
  let report := Command.run h args
  Program.writeSettings h.files report.files
  (← IO.getStderr).putStr report.stderr
  (← IO.getStdout).putStr report.stdout
  return UInt32.ofNat report.code
