import GoResolver.Command.Run
import GoResolver.Proofs.Settings.RoundTrip
import GoResolver.Proofs.Settings.Workspace

/-!
# Making a settings file again

Where there is a settings file already, none is made; only when forced to, the template is written
in its place, and it does not matter then what the file held (`initialize_of_hasSettings`).  But a
command runs only after the settings have been loaded, and they are loaded from this very file.

1. The settings file of the current directory is replaced in its place.
2. What its content comes to as settings (`SettingsLibrary.ofContent?`) is what is loaded, because
   the current directory is a workspace then.
3. So a run that was forced succeeds exactly when the settings that it replaces are in order.  A
   file that is not is left as it is (`not_recovered_of_wrong_type`).

The file is written by its relative path, but it is loaded by its path from the root, so the path of
the current directory must leave room for it.
-/

namespace GoResolver

/-! ## 1. The settings file of the current directory -/

namespace FileTree

variable {t : FileTree} {entries : List (String × Node)} {content : Content}

/-- The current directory holds a settings directory, with the given entries, and that a settings
file. -/
structure HasSettings (t : FileTree) (entries : List (String × Node)) (content : Content) :
    Prop where
  directory : t.root.get? (t.cwd ++ [".gosuggest"]) = some (.dir entries)
  entry : entries.lookup "settings.toml" = some (.file content)

/-- The tree with another text in the settings file of the current directory. -/
def withSettings (t : FileTree) (text : String) : FileTree :=
  { t with root := t.root.put (t.cwd ++ [".gosuggest"] ++ ["settings.toml"]) (.file (.text text)) }

theorem exists_hasSettings (h : t.find settingsFile = .ok (.file content)) :
    ∃ entries, t.HasSettings entries content := by
  obtain ⟨q, hplace, hq⟩ := find_eq_ok_iff.mp h
  have hcomponents : settingsFile.components = [.name ".gosuggest", .name "settings.toml"] := rfl
  have hresolved : q = t.cwd ++ [".gosuggest"] ++ ["settings.toml"] := by
    rw [place_eq_resolved hplace, Path.resolved, hcomponents]
    rfl
  rw [hresolved] at hq
  obtain ⟨entries, hdirectory⟩ := Node.exists_dir_of_get?_append (List.cons_ne_nil _ _) hq
  exact ⟨entries, hdirectory, by rw [← Node.get?_concat hdirectory, hq]⟩

namespace HasSettings

variable (h : t.HasSettings entries content)
include h

theorem step_directory : t.step t.cwd ".gosuggest" = .ok (t.cwd ++ [".gosuggest"]) := by
  obtain ⟨above, habove⟩ := Node.exists_dir_of_get?_append (List.cons_ne_nil _ _) h.directory
  have hentry : (above.lookup ".gosuggest").isSome = true := by
    rw [← Node.get?_concat habove, h.directory]
    rfl
  rw [step_name habove rfl (by decide), if_pos hentry]

theorem step_file : t.step (t.cwd ++ [".gosuggest"]) "settings.toml" =
    .ok (t.cwd ++ [".gosuggest"] ++ ["settings.toml"]) := by
  rw [step_name h.directory rfl (by decide), h.entry]
  rfl

theorem get?_file :
    t.root.get? (t.cwd ++ [".gosuggest"] ++ ["settings.toml"]) = some (.file content) := by
  rw [Node.get?_concat h.directory, h.entry]

theorem find_settingsDirectory : t.find settingsDirectory = .ok (.dir entries) := by
  have hplace : t.place settingsDirectory = .ok (t.cwd ++ [".gosuggest"]) := by
    have hrefusal : settingsDirectory.refusal? = none := rfl
    have hsegments : settingsDirectory.segments = [".gosuggest"] := rfl
    have hstart : t.start settingsDirectory = t.cwd := if_neg (by decide)
    rw [FileTree.place, hrefusal]
    dsimp only
    rw [hstart, hsegments, walk, h.step_directory]
    rfl
  exact find_eq_ok_iff.mpr ⟨_, hplace, h.directory⟩

theorem find_settingsFile : t.find settingsFile = .ok (.file content) :=
  (find_child_eq_ok_iff h.find_settingsDirectory (by decide)).mpr ⟨h.entry, by decide⟩

/-- The settings directory is there already. -/
theorem makeDirs_settingsDirectory : t.makeDirs settingsDirectory = .ok t := by
  have hancestors : settingsDirectory.ancestors = [settingsDirectory, ⟨""⟩] := rfl
  have htarget : target settingsDirectory = ([], some ".gosuggest") := rfl
  have hrefusal : settingsDirectory.refusal? = none := rfl
  have hstart : t.start settingsDirectory = t.cwd := if_neg (by decide)
  have hmake : t.makeDir settingsDirectory = .error .exists := by
    rw [makeDir, hrefusal, htarget]
    simp only [hstart, walk, h.step_directory, bind, Except.bind]
  have hdir : t.isDir settingsDirectory = true := isDir_iff.mpr ⟨entries, h.find_settingsDirectory⟩
  rw [makeDirs, hancestors, makeDirs.go, if_neg (by decide), hmake]
  dsimp only
  rw [if_pos hdir]

/-- The settings file is written in its place, whatever it held. -/
theorem writeText_settingsFile (text : String) :
    t.writeText settingsFile text = .ok (t.withSettings text) := by
  have htarget : target settingsFile = ([".gosuggest"], some "settings.toml") := rfl
  have hrefusal : settingsFile.refusal? = none := rfl
  have hstart : t.start settingsFile = t.cwd := if_neg (by decide)
  have hwalk : t.walk t.cwd [".gosuggest"] = .ok (t.cwd ++ [".gosuggest"]) := by
    rw [walk, h.step_directory]
    rfl
  have hlast : ¬ settingsFile.text.toList.getLast? = some '/' := by decide
  rw [writeText, hrefusal, htarget]
  simp only [hstart, hwalk, h.step_file, h.get?_file, if_neg hlast, bind, Except.bind, withSettings]

end HasSettings

end FileTree

/-! ## 2. What the file comes to -/

/-- **Where there is a settings file already, none is made**, and when forced to, the template takes
its place, whatever the file held. -/
theorem Settings.initialize_of_hasSettings {t : FileTree} {entries : List (String × Node)}
    {content : Content} (hfile : t.HasSettings entries content) :
    Settings.initialize t false = .error .alreadyExists ∧
      Settings.initialize t true = .ok (t.withSettings template) := by
  unfold Settings.initialize
  constructor
  · rw [FileTree.contains, hfile.find_settingsFile]
    rfl
  · rw [Bool.not_true, Bool.false_and, if_neg Bool.false_ne_true, FileTree.writeWithParents,
      hfile.makeDirs_settingsDirectory]
    dsimp only
    rw [hfile.writeText_settingsFile]

/-- With a settings file in it, the current directory is a workspace. -/
theorem Host.hasWorkspace_of_hasSettings {h : Host} {entries : List (String × Node)}
    {content : Content} (hfiles : h.files.WellFormed)
    (hfits : (settingsFileOf h.files.cwd).Fits) (hfile : h.files.HasSettings entries content) :
    h.HasWorkspace h.files.cwd entries where
  contains := List.prefix_refl _
  holds := by
    have hrel : settingsDirectory.isAbsolute = false := rfl
    have hdirFits : (h.currentDir.join settingsDirectory).Fits :=
      Path.fits_of_fits_join rfl hfits
    have hplace := place_currentDir hfiles (Path.fits_of_fits_join hrel hdirFits)
    exact find_join_currentDir hplace hfiles.cwd hrel hdirFits hfile.find_settingsDirectory
  nearest _ hbelow habove hne := absurd (habove.eq_of_length_le hbelow.length_le) hne

namespace SettingsLibrary

variable (lib : SettingsLibrary)

/-- The layer of a settings file with the given content, if it is one. -/
def layerOfContent? : Content → Option Layer
  | .text s => (lib.parse? s).bind Setting.ofTomlEntries?
  | .bytes => none

/-- The settings that the content of a settings file comes to by itself, if it is in order: it is
a text, in the format, and every value that is a setting is of its setting's type. -/
def ofContent? (content : Content) : Option Settings :=
  (lib.layerOfContent? content).bind fun layer => (lib.ofLayers none layer []).toOption

variable {lib} {h : Host} {entries : List (String × Node)} {content : Content}

theorem toOption_fileLayer {files : FileTree} {path : Path}
    (hfind : files.find path = .ok (.file content)) :
    (lib.fileLayer files path).toOption = lib.layerOfContent? content := by
  rw [fileLayer, FileTree.readText, hfind]
  cases content with
  | bytes => rfl
  | text s =>
    dsimp only [layerOfContent?]
    cases (lib.parse? s).bind Setting.ofTomlEntries? <;> rfl

/-- Where the file stands has no part in whether the settings are in order. -/
theorem toOption_ofLayers (file : Option Path) (layer environment : Layer) :
    (lib.ofLayers file layer environment).toOption =
      (lib.ofLayers none layer environment).toOption := by
  rw [ofLayers, ofLayers]
  cases Setting.asSettings (lib.stack (lib.stack Settings.defaultLayer layer) environment) <;> rfl

theorem toOption_bind {ε α β : Type} (x : Except ε α) (f : α → Except ε β) :
    (x >>= f).toOption = x.toOption.bind fun a => (f a).toOption := by
  cases x <;> rfl

/-- **What is loaded is what the settings file of the current directory comes to**, if its path is
not too long and the environment has no settings of its own. -/
theorem toOption_load (hlib : lib.Overlays) (hfiles : h.files.WellFormed)
    (henvironment : ∀ e ∈ h.environment, ¬ Variable.InNamespace e.1)
    (hfits : (settingsFileOf h.files.cwd).Fits) (hfile : h.files.HasSettings entries content) :
    (lib.load h).toOption = (lib.ofContent? content).map fun s =>
      { s with workspaceRoot := s.workspaceRoot <|> some h.currentDir } := by
  have hw := Host.hasWorkspace_of_hasSettings hfiles hfits hfile
  have hname : IsEntryName "settings.toml" := by decide
  have hfind : h.files.find (settingsFileOf h.files.cwd) = .ok (.file content) :=
    (FileTree.find_child_eq_ok_iff hw.holds hname).mpr ⟨hfile.entry, hfits⟩
  have hfound : h.findSettings? (settingsFileOf h.files.cwd) =
      some (settingsFileOf h.files.cwd) := by
    rw [Host.findSettings?, if_pos (isAbsolute_settingsFileOf _), FileTree.isFile, hfind]
    rfl
  rw [load_eq hw hfiles, loadFrom_eq, layerAt, hfound, layer_eq_nil hlib henvironment]
  simp only [toOption_bind, toOption_fileLayer hfind, toOption_ofLayers (some _)]
  rw [← ofContent?, Option.map_eq_bind]
  rfl

/-- So settings can be loaded exactly when the file is in order. -/
theorem isSome_load (hlib : lib.Overlays) (hfiles : h.files.WellFormed)
    (henvironment : ∀ e ∈ h.environment, ¬ Variable.InNamespace e.1)
    (hfits : (settingsFileOf h.files.cwd).Fits) (hfile : h.files.HasSettings entries content) :
    (lib.load h).toOption.isSome = (lib.ofContent? content).isSome := by
  rw [toOption_load hlib hfiles henvironment hfits hfile, Option.isSome_map]

end SettingsLibrary

/-! ## 3. Runs -/

namespace Command

open SettingsLibrary (standard overlays_standard)

variable {lib : SettingsLibrary} {h : Host} {entries : List (String × Node)} {content : Content}

/-- What a run leaves behind that made the settings file again. -/
def overwritten (files : FileTree) : Report where
  stdout := "Overwrote configuration at: .gosuggest/settings.toml\n"
  files := files.withSettings Settings.template

theorem runWith_init (hfile : h.files.HasSettings entries content) :
    (runWith lib h ["init"]).code = failureCode ∧ (runWith lib h ["init"]).files = h.files := by
  have hread : Invocation.read ["init"] = .ok { action := .init false } := rfl
  rw [runWith, hread]
  dsimp only
  rw [Invocation.run]
  split
  · exact ⟨rfl, rfl⟩
  · dsimp only
    rw [runInit, (Settings.initialize_of_hasSettings hfile).1]
    exact ⟨rfl, rfl⟩

theorem runWith_init_force (hfile : h.files.HasSettings entries content) :
    runWith lib h ["init", "--force"] = match lib.load h with
      | .ok _ => overwritten h.files
      | .error e => .failure h.files ("Configuration error: " ++ e.message h.currentDir) := by
  have hread : Invocation.read ["init", "--force"] = .ok { action := .init true } := rfl
  have hsettings : Invocation.settings lib { action := .init true } h = lib.load h := rfl
  rw [runWith, hread]
  dsimp only
  rw [Invocation.run, hsettings]
  cases lib.load h with
  | error e => rfl
  | ok s =>
    dsimp only
    rw [runInit, (Settings.initialize_of_hasSettings hfile).2]
    rfl

/-- **When a forced run recovers.**  Where there is a settings file, a run without force fails and
leaves everything as it is.  A run with force leaves the template in the file exactly when the
settings can be loaded, and fails and leaves everything as it is when they cannot.  They can be
loaded exactly when the content of the file is in order, if its path is not too long.  The template
itself can be written whatever the content is. -/
theorem init_force_recovers_iff (hfiles : h.files.WellFormed)
    (henvironment : ∀ e ∈ h.environment, ¬ Variable.InNamespace e.1)
    (hfile : h.files.find settingsFile = .ok (.file content)) :
    ((runWith lib h ["init"]).code = failureCode ∧
      (runWith lib h ["init"]).files = h.files) ∧
    (runWith lib h ["init", "--force"] = match lib.load h with
      | .ok _ => overwritten h.files
      | .error e => .failure h.files ("Configuration error: " ++ e.message h.currentDir)) ∧
    (lib.Overlays → (settingsFileOf h.files.cwd).Fits →
      (lib.load h).toOption.isSome = (lib.ofContent? content).isSome) ∧
    Settings.initialize h.files true = .ok (overwritten h.files).files ∧
    (overwritten h.files).files.readText settingsFile = .ok Settings.template := by
  obtain ⟨entries, hsettings⟩ := FileTree.exists_hasSettings hfile
  have hwritten := (Settings.initialize_of_hasSettings hsettings).2
  refine ⟨runWith_init hsettings, runWith_init_force hsettings, ?_, hwritten, ?_⟩
  · exact fun hlib hfits =>
      SettingsLibrary.isSome_load hlib hfiles henvironment hfits hsettings
  · have hfind := (FileTree.find_of_writeWithParents hfiles hwritten).2
    rw [FileTree.readText, overwritten, hfind]

/-- A machine with the given text in the settings file of a project. -/
def project (text : String) : Host where
  files := {
    root := .dir [("work", .dir [(".gosuggest", .dir [("settings.toml", .file (.text text))])])]
    cwd := ["work"] }
  environment := [("HOME", "/home")]

theorem wellFormed_project (text : String) : (project text).files.WellFormed :=
  ⟨by simp [project]; decide +kernel, ⟨_, rfl⟩⟩

theorem not_inNamespace_project (text : String) :
    ∀ e ∈ (project text).environment, ¬ Variable.InNamespace e.1 := by
  rw [project, List.forall_mem_singleton]
  decide

theorem find_project (text : String) :
    (project text).files.find settingsFile = .ok (.file (.text text)) := rfl

theorem init_force_recovers_from_version :
    (project "version = 9\n").files.WellFormed ∧
    (∀ e ∈ (project "version = 9\n").environment, ¬ Variable.InNamespace e.1) ∧
    standard.Overlays ∧
    run (project "version = 9\n") ["init", "--force"] =
      overwritten (project "version = 9\n").files := by
  have hfiles := wellFormed_project "version = 9\n"
  have henvironment := not_inNamespace_project "version = 9\n"
  refine ⟨hfiles, henvironment, overlays_standard, ?_⟩
  obtain ⟨-, hforce, hload, -⟩ :=
    @init_force_recovers_iff standard _ _ hfiles henvironment (find_project _)
  have hcontent : (standard.ofContent? (.text "version = 9\n")).isSome = true := by
    decide +kernel
  have hloaded := (hload overlays_standard (by decide)).trans hcontent
  rw [run, hforce]
  split
  · rfl
  · next e he =>
    rw [he] at hloaded
    cases hloaded

/-- **A forced run does not always recover.**  The settings file has a text where a number should
be, and it still has it after the run. -/
theorem not_recovered_of_wrong_type :
    (run (project "version = 'x'\n") ["init", "--force"]).code = failureCode ∧
    (run (project "version = 'x'\n") ["init", "--force"]).files.readText settingsFile =
      .ok "version = 'x'\n" ∧
    "version = 'x'\n" ≠ Settings.template := by
  obtain ⟨entries, hsettings⟩ := FileTree.exists_hasSettings (find_project "version = 'x'\n")
  have hcontent : (standard.ofContent? (.text "version = 'x'\n")).isSome = false := by
    decide +kernel
  have hload := SettingsLibrary.isSome_load overlays_standard (wellFormed_project _)
    (not_inNamespace_project _) (by decide) hsettings
  rw [hcontent] at hload
  have hrun := @runWith_init_force standard _ _ _ hsettings
  cases hresult : standard.load (project "version = 'x'\n") with
  | ok s =>
    rw [hresult] at hload
    cases hload
  | error e =>
    rw [hresult] at hrun
    rw [run, hrun]
    exact ⟨rfl, rfl, by decide⟩

end Command

end GoResolver
