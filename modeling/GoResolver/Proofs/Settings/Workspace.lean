import GoResolver.Proofs.FileTree.Writing
import GoResolver.Proofs.Path.NormalForm
import GoResolver.Proofs.Settings.Standard

/-!
# Settings are the same everywhere in a workspace

A workspace is found by going up from the current directory, and so are the settings and the
workspace's root that they name.  Two searches have to end in one directory for that, from wherever
below the workspace they start.

1. The directories above a place are the beginnings of its names (`ancestors_ofPlace`), so the
   search for the workspace ends at the longest beginning with a settings directory
   (`HasWorkspace.workspace?_eq`).
2. What is then looked up has an absolute path, which leads to the same file from everywhere
   (`find_of_isAbsolute`), and the file is an entry of the settings directory, which is all that is
   looked into (`find_child_congr`).
3. The root that the settings name is that of the uppermost layer that names one, and the workspace
   itself if none does (`workspaceRoot_of_ofLayers`).  Only this depends on how layers are laid over
   each other and on what is read from a file.

Nothing is assumed about directories beyond the workspace.  There may be settings directories above
it, and there may be none in it but an empty one.

Errors are compared as values.  Their messages show the file as seen from the current directory.
-/

namespace GoResolver

/-! ## 1. The directories above a place -/

namespace Path

/-- The path of a place from the root. -/
def ofPlace (place : List String) : Path := ⟨"/" ++ slashed place⟩

section

variable {place : List String} (hplace : ∀ s ∈ place, IsStep (.name s))
include hplace

theorem components_ofPlace : (ofPlace place).components = .root :: place.map .name := by
  have hcomponents := components_slash_slashed_segments (forall_isStep_map_name hplace)
  rwa [map_segment_map_name] at hcomponents

/-- The names of a place are not trivial, so cutting the path of a place counts them all. -/
theorem takeBody_of_isStep (n : Nat) : takeBody n place = place.take n := by
  induction place generalizing n with
  | nil => cases n <;> rfl
  | cons s place ih =>
    obtain ⟨hs, hrest⟩ := List.forall_mem_cons.mp hplace
    cases n with
    | zero => rfl
    | succ n =>
      have htrivial : ¬ isTrivial s = true := Bool.not_eq_true _ ▸ hs.not_isTrivial
      rw [takeBody, if_neg htrivial, ih hrest, List.take_succ_cons]

theorem lead_ofPlace : (ofPlace place).lead = some .root :=
  (lead_and_steps_of_components_eq (.inr rfl) (by simp) (components_ofPlace hplace)).1

theorem body_ofPlace (hne : place ≠ []) : (ofPlace place).body = place := by
  have hsegments : (ofPlace place).segments = "" :: segments ⟨slashed place⟩ :=
    segments_append_slash "" (slashed place)
  rw [body, lead_ofPlace hplace, hsegments, List.tail_cons,
    segments_slashed hne fun s hs => (hplace s hs).2]

/-- A place without its last names has the path that the names before them have. -/
theorem take_ofPlace (hne : place ≠ []) (n : Nat) :
    (ofPlace place).take (n + 1) = ofPlace (place.take n) := by
  rw [Path.take, lead_ofPlace hplace, body_ofPlace hplace hne, cut, if_neg n.succ_ne_zero,
    Nat.add_sub_cancel, takeBody_of_isStep hplace, spell, ofPlace]

/-- **The directories above a place are its beginnings, longest first.** -/
theorem ancestors_ofPlace : (ofPlace place).ancestors = place.inits.reverse.map ofPlace := by
  have hfloor : (ofPlace place).floor = 1 := by
    rw [floor, isAbsolute_iff_lead_eq_root.mpr (lead_ofPlace hplace), if_pos rfl]
  have hlength : (ofPlace place).components.length = place.length + 1 := by
    rw [components_ofPlace hplace, List.length_cons, List.length_map]
  rw [ancestors_eq, hfloor, hlength, Nat.add_sub_cancel, ← map_take_range_eq_reverse_inits,
    List.range_succ_eq_map, List.map_cons, List.map_cons, Nat.sub_zero, List.take_length,
    List.map_map, List.map_map]
  refine congrArg (ofPlace place :: ·) (List.map_congr_left fun k hk => ?_)
  have hk : k < place.length := List.mem_range.mp hk
  have hne : place ≠ [] := List.ne_nil_of_length_pos (by omega)
  have hcount : place.length - k = (place.length - (k + 1)) + 1 := by omega
  rw [Function.comp_apply, Function.comp_apply, hcount, take_ofPlace hplace hne]

end

end Path

/-- The longest beginning of a list with a property, found from the list downwards. -/
theorem find?_reverse_inits {α : Type} {P : List α → Bool} {front place : List α}
    (hfront : front <+: place) (hP : P front = true)
    (hlonger : ∀ d, front <+: d → d <+: place → d ≠ front → P d = false) :
    place.inits.reverse.find? P = some front := by
  obtain ⟨rest, rfl⟩ := hfront
  have hhead : front.inits.reverse.find? P = some front := by
    rw [← Path.map_take_range_eq_reverse_inits, List.range_succ_eq_map, List.map_cons,
      Nat.sub_zero, List.take_length, List.find?_cons_of_pos hP]
  have hnone : ((rest.inits.tail.map (front ++ ·)).reverse).find? P = none := by
    rw [List.find?_eq_none]
    intro d hd
    obtain ⟨l, hl, rfl⟩ := List.mem_map.mp (List.mem_reverse.mp hd)
    have hprefix : l <+: rest := (List.mem_inits l rest).mp (List.mem_of_mem_tail hl)
    have hne : l ≠ [] := by
      cases rest with
      | nil => cases hl
      | cons x rest =>
        rw [List.inits_cons, List.tail_cons] at hl
        obtain ⟨l', -, rfl⟩ := List.mem_map.mp hl
        exact List.cons_ne_nil x l'
    rw [hlonger (front ++ l) (List.prefix_append front l)
      ((List.prefix_append_right_inj front).mpr hprefix) (by simpa using hne)]
    exact Bool.false_ne_true
  rw [List.inits_append, List.reverse_append, List.find?_append, hnone, Option.none_or, hhead]

/-! ## 2. Absolute paths -/

namespace FileTree

variable {t t' : FileTree} {p : Path}

/-- The tree with another current directory. -/
def inDir (t : FileTree) (place : List String) : FileTree := { t with cwd := place }

theorem walk_inDir (t : FileTree) (cwd place : List String) (segs : List String) :
    (t.inDir cwd).walk place segs = t.walk place segs := by
  induction segs generalizing place with
  | nil => rfl
  | cons s segs ih =>
    have hstep : (t.inDir cwd).step place s = t.step place s := rfl
    rw [walk, walk, hstep]
    cases t.step place s with
    | error e => rfl
    | ok next => exact ih next

/-- **An absolute path leads to the same node from everywhere.** -/
theorem find_of_isAbsolute (hp : p.isAbsolute = true) (cwd : List String) :
    (t.inDir cwd).find p = t.find p := by
  have hstart : (t.inDir cwd).start p = t.start p := by
    rw [start, start, if_pos hp, if_pos hp]
  rw [find, find, FileTree.place, FileTree.place, hstart]
  cases p.refusal? with
  | some e => rfl
  | none =>
    dsimp only
    rw [walk_inDir]
    rfl

/-- In two trees with the same directory at a path, the paths of its entries lead to the same
nodes, whatever else is in the trees. -/
theorem find_child_congr {entries : List (String × Node)} (h : t.find p = .ok (.dir entries))
    (h' : t'.find p = .ok (.dir entries)) {name : String} (hname : IsEntryName name) :
    t.find (p.child name) = t'.find (p.child name) := by
  cases hrefusal : (p.child name).refusal? with
  | some e => rw [find, find, FileTree.place, FileTree.place, hrefusal]
  | none =>
    have hfits := (refusal?_eq_none_iff.mp hrefusal).2.2
    rw [find_child h hname hfits, find_child h' hname hfits]

end FileTree

/-! ## 3. The workspace -/

/-- The path of the settings directory of a place. -/
def settingsDirectoryOf (w : List String) : Path := (Path.ofPlace w).join settingsDirectory

/-- The path of the settings file of a place. -/
def settingsFileOf (w : List String) : Path := (settingsDirectoryOf w).child "settings.toml"

theorem isAbsolute_settingsDirectoryOf (w : List String) :
    (settingsDirectoryOf w).isAbsolute = true := by
  have hrel : settingsDirectory.isAbsolute = false := rfl
  have habs : (Path.ofPlace w).isAbsolute = true := by simp [Path.isAbsolute, Path.ofPlace]
  have htext : (Path.ofPlace w).text ≠ "" := by
    rw [Path.ofPlace, ← String.toList_inj.ne]
    simp
  rw [Path.isAbsolute_iff_lead_eq_root, settingsDirectoryOf, Path.lead_join htext hrel]
  exact Path.isAbsolute_iff_lead_eq_root.mp habs

theorem isAbsolute_settingsFileOf (w : List String) : (settingsFileOf w).isAbsolute = true := by
  have hrel : Path.isAbsolute ⟨"settings.toml"⟩ = false := rfl
  have habs := isAbsolute_settingsDirectoryOf w
  have htext : (settingsDirectoryOf w).text ≠ "" := by
    intro hempty
    rw [Path.isAbsolute, hempty] at habs
    cases habs
  rw [Path.isAbsolute_iff_lead_eq_root, settingsFileOf, Path.child, Path.lead_join htext hrel]
  exact Path.isAbsolute_iff_lead_eq_root.mp habs

namespace Host

variable {h h' : Host} {w : List String} {entries : List (String × Node)} {path : Path}

/-- The machine with another current directory. -/
def inDir (h : Host) (place : List String) : Host := { h with files := h.files.inDir place }

/-- The current directory is in a workspace: the workspace contains it and holds a settings
directory, with the given entries, and no directory on the way up to the workspace holds one. -/
structure HasWorkspace (h : Host) (w : List String) (entries : List (String × Node)) : Prop where
  contains : w <+: h.files.cwd
  holds : h.files.find (settingsDirectoryOf w) = .ok (.dir entries)
  nearest : ∀ d, w <+: d → d <+: h.files.cwd → d ≠ w →
    h.files.isDir (settingsDirectoryOf d) = false

/-- The search for the workspace ends at it. -/
theorem HasWorkspace.workspace?_eq (hw : h.HasWorkspace w entries) (hfiles : h.files.WellFormed) :
    h.workspace? = some (Path.ofPlace w) := by
  obtain ⟨cwdEntries, hcwd⟩ := hfiles.cwd
  have hnames : ∀ s ∈ h.files.cwd, Path.IsStep (.name s) := fun s hs =>
    (hfiles.names.of_get? hcwd s hs).1
  have hdir : h.files.isDir (settingsDirectoryOf w) = true :=
    FileTree.isDir_iff.mpr ⟨entries, hw.holds⟩
  have hcurrent : h.currentDir = Path.ofPlace h.files.cwd := rfl
  rw [workspace?, hcurrent, Path.ancestors_ofPlace hnames, List.find?_map]
  exact congrArg _ (find?_reverse_inits hw.contains hdir hw.nearest)

/-- The workspace of a directory is its own workspace. -/
theorem HasWorkspace.inDir (hw : h.HasWorkspace w entries) :
    (h.inDir w).HasWorkspace w entries where
  contains := List.prefix_refl w
  holds := (FileTree.find_of_isAbsolute (isAbsolute_settingsDirectoryOf w) w).trans hw.holds
  nearest _ hbelow habove hne := absurd (habove.eq_of_length_le hbelow.length_le) hne

theorem wellFormed_inDir (hfiles : h.files.WellFormed) (hw : h.HasWorkspace w entries) :
    (h.inDir w).files.WellFormed where
  names := hfiles.names
  cwd := hfiles.cwd.of_prefix hw.contains

/-- What is found behind an absolute path is all that the search for a settings file there looks at.
-/
theorem findSettings?_congr (hpath : path.isAbsolute = true)
    (hfind : h.files.find path = h'.files.find path) :
    h.findSettings? path = h'.findSettings? path := by
  rw [findSettings?, findSettings?, if_pos hpath, if_pos hpath, FileTree.isFile, FileTree.isFile,
    hfind]

end Host

namespace SettingsLibrary

variable {lib : SettingsLibrary} {h h' : Host} {w : List String}
  {entries : List (String × Node)} {path : Path}

variable (lib) in
/-- The layer of the settings file at a path, which is empty where there is no file. -/
def layerAt (h : Host) (path : Path) : Except SettingsError Layer :=
  match h.findSettings? path with
  | none => .ok []
  | some file => lib.fileLayer h.files file

/-- Settings are those of the file's layer and the environment. -/
theorem loadFrom_eq (h : Host) (path : Path) :
    lib.loadFrom h path = lib.layerAt h path >>= fun layer =>
      lib.ofLayers (h.findSettings? path) layer (lib.layer h.environment) := by
  rw [loadFrom, layerAt]
  cases h.findSettings? path with
  | none => rfl
  | some file => rfl

theorem layerAt_congr (hpath : path.isAbsolute = true)
    (hfind : h.files.find path = h'.files.find path) :
    lib.layerAt h path = lib.layerAt h' path := by
  rw [layerAt, layerAt, Host.findSettings?_congr hpath hfind, Host.findSettings?, if_pos hpath]
  split
  · rfl
  · next file hfile =>
    split at hfile
    · obtain rfl := Option.some_inj.mp hfile
      rw [fileLayer, fileLayer, FileTree.readText, FileTree.readText, hfind]
    · cases hfile

/-- Loading in a workspace reads its settings file and fills in its path. -/
theorem load_eq (hw : h.HasWorkspace w entries) (hfiles : h.files.WellFormed) :
    lib.load h = lib.loadFrom h (settingsFileOf w) >>= fun s =>
      .ok { s with workspaceRoot := s.workspaceRoot <|> some (Path.ofPlace w) } := by
  rw [load, hw.workspace?_eq hfiles]
  rfl

/-- Two machines with the same settings directory in their workspaces, and the same environment,
load the same. -/
theorem load_congr (hfiles : h.files.WellFormed) (hfiles' : h'.files.WellFormed)
    (henvironment : h'.environment = h.environment) (hw : h.HasWorkspace w entries)
    (hw' : h'.HasWorkspace w entries) : lib.load h' = lib.load h := by
  have hname : IsEntryName "settings.toml" := by decide
  have hfind : h'.files.find (settingsFileOf w) = h.files.find (settingsFileOf w) :=
    FileTree.find_child_congr hw'.holds hw.holds hname
  have hpath := isAbsolute_settingsFileOf w
  rw [load_eq hw hfiles, load_eq hw' hfiles', loadFrom_eq, loadFrom_eq, henvironment,
    layerAt_congr hpath hfind, Host.findSettings?_congr hpath hfind]

end SettingsLibrary

namespace Settings

/-! ## 4. The workspace's root -/

/-- The root that a layer names. -/
def rootIn (layer : Layer) : Option Path :=
  match layer.lookup "workspace_root" with
  | some (.string text) => some ⟨text⟩
  | _ => none

theorem rootIn_of_lookup {layer : Layer} {p : Path}
    (h : layer.lookup "workspace_root" = some (.string p.text)) : rootIn layer = some p := by
  rw [rootIn, h]

theorem rootIn_of_lookup_eq_none {layer : Layer} (h : layer.lookup "workspace_root" = none) :
    rootIn layer = none := by
  rw [rootIn, h]

/-- What lies over another value is a text only if it is one by itself. -/
theorem eq_string_of_overlaid {lib : SettingsLibrary} {v : Setting} {below : Option Setting}
    {text : String} (h : lib.overlaid below v = .string text) : v = .string text := by
  cases v with
  | table upper =>
    -- a table stays one, whatever it lies over
    cases below with
    | none => cases h
    | some w => cases w <;> cases h
  | _ => exact h

/-- A root that is read from a layer is written in it. -/
theorem lookup_of_optional_asPath {layer : Layer} {name : String} {root : Option Path}
    (h : Setting.optional layer name Setting.asPath = .ok root) :
    layer.lookup name = root.map fun p => .string p.text := by
  rw [Setting.optional] at h
  split at h
  · next hnone =>
    rw [hnone, ← Except.ok.inj h]
    rfl
  · next v hv =>
    cases v with
    | string text =>
      rw [hv, ← Except.ok.inj h]
      rfl
    | _ => cases h

/-- The root among settings is read from their layers. -/
theorem optional_of_asSettings {layer : Layer} {s : Settings}
    (h : Setting.asSettings layer = .ok s) :
    Setting.optional layer "workspace_root" Setting.asPath = .ok s.workspaceRoot := by
  rw [Setting.asSettings] at h
  obtain ⟨build, -, h⟩ := FileTree.exists_of_bind_eq_ok h
  obtain ⟨debug, -, h⟩ := FileTree.exists_of_bind_eq_ok h
  obtain ⟨suggest, -, h⟩ := FileTree.exists_of_bind_eq_ok h
  obtain ⟨version, -, h⟩ := FileTree.exists_of_bind_eq_ok h
  obtain ⟨root, hroot, h⟩ := FileTree.exists_of_bind_eq_ok h
  rw [hroot, ← Except.ok.inj h]

end Settings

namespace SettingsLibrary

open Settings (rootIn rootIn_of_lookup rootIn_of_lookup_eq_none eq_string_of_overlaid
  lookup_of_optional_asPath optional_of_asSettings shaped_defaultLayer)

variable {lib : SettingsLibrary} {h : Host} {w : List String} {entries : List (String × Node)}
  {path : Path}

/-- **The root that settings name is that of the uppermost layer that names one.** -/
theorem workspaceRoot_of_ofLayers (hlib : lib.Overlays) {file : Option Path}
    {layer environment : Layer} {s : Settings} (hlayer : (layer.map Prod.fst).Nodup)
    (henvironment : (environment.map Prod.fst).Nodup)
    (h : lib.ofLayers file layer environment = .ok s) :
    s.workspaceRoot = (rootIn environment <|> rootIn layer) := by
  have hdefault : Settings.defaultLayer.lookup "workspace_root" = none := rfl
  have hnames := shaped_defaultLayer.names
  rw [ofLayers] at h
  split at h
  · next hs =>
    rw [Except.ok.inj h] at hs
    have hlookup := lookup_of_optional_asPath (optional_of_asSettings hs)
    rw [hlib.lookup _ _ (hlib.names _ _ hnames hlayer) henvironment,
      hlib.lookup _ _ hnames hlayer, hdefault] at hlookup
    generalize s.workspaceRoot = root at hlookup ⊢
    cases henv : environment.lookup "workspace_root" with
    | some v =>
      rw [henv] at hlookup
      obtain ⟨p, rfl, hp⟩ := Option.map_eq_some_iff.mp hlookup.symm
      rw [eq_string_of_overlaid hp.symm] at henv
      rw [rootIn_of_lookup henv]
      rfl
    | none =>
      rw [henv] at hlookup
      rw [rootIn_of_lookup_eq_none henv]
      cases hfile : layer.lookup "workspace_root" with
      | some v =>
        rw [hfile] at hlookup
        obtain ⟨p, rfl, hp⟩ := Option.map_eq_some_iff.mp hlookup.symm
        rw [eq_string_of_overlaid hp.symm] at hfile
        rw [rootIn_of_lookup hfile]
        rfl
      | none =>
        rw [hfile] at hlookup
        rw [rootIn_of_lookup_eq_none hfile, Option.map_eq_none_iff.mp hlookup.symm]
        rfl
  · cases h

theorem nodup_layerAt (hlib : lib.ReadsTables) {layer : Layer}
    (h : lib.layerAt h path = .ok layer) : (layer.map Prod.fst).Nodup := by
  rw [layerAt] at h
  split at h
  · rw [← Except.ok.inj h]
    exact List.nodup_nil
  · rw [fileLayer] at h
    split at h
    · cases h
    · split at h
      · cases h
      · next hparsed =>
        obtain ⟨document, hdocument, hlayer⟩ := Option.bind_eq_some_iff.mp hparsed
        obtain rfl := Except.ok.inj h
        rw [Setting.map_fst_of_ofTomlEntries? hlayer]
        exact (hlib _ _ hdocument).names

/-- The layer of a variable has at most one entry. -/
theorem nodup_layerOf (name text : String) : ((lib.layerOf name text).map Prod.fst).Nodup := by
  rw [layerOf]
  split
  · exact List.nodup_singleton _
  · exact List.nodup_nil

theorem nodup_layer (hlib : lib.Overlays) (environment : List (String × String)) :
    ((lib.layer environment).map Prod.fst).Nodup := by
  have hfold : ∀ layer : Layer, (layer.map Prod.fst).Nodup →
      ((environment.foldl (fun l e => lib.stack l (lib.layerOf e.1 e.2)) layer).map
        Prod.fst).Nodup := by
    induction environment with
    | nil => exact fun layer hlayer => hlayer
    | cons e environment ih =>
      exact fun layer hlayer => ih _ (hlib.names _ _ hlayer (nodup_layerOf e.1 e.2))
  exact hfold [] List.nodup_nil

/-! ## 5. Everywhere in a workspace -/

/-- **Settings are loaded the same everywhere in a workspace**, or fail to in the same way, whatever
they are read with.  Nothing but the settings directory of the workspace and the environment has a
part in it, and the workspace is the root unless one of the two names another. -/
theorem load_agrees_in_workspace (hfiles : h.files.WellFormed) (hw : h.HasWorkspace w entries) :
    lib.load h = lib.load (h.inDir w) ∧
    (∀ h' : Host, h'.files.WellFormed → h'.environment = h.environment →
      h'.HasWorkspace w entries → lib.load h' = lib.load h) ∧
    (lib.Overlays → lib.ReadsTables → ∀ s, lib.load h = .ok s →
      ∃ layer, lib.layerAt h (settingsFileOf w) = .ok layer ∧
        s.workspaceRoot = (rootIn (lib.layer h.environment) <|> rootIn layer <|>
          some (Path.ofPlace w))) := by
  refine ⟨?_, ?_, ?_⟩
  · exact load_congr (Host.wellFormed_inDir hfiles hw) hfiles rfl hw.inDir hw
  · exact fun h' hfiles' henvironment hw' => load_congr hfiles hfiles' henvironment hw hw'
  · intro hoverlays htables s hs
    rw [load_eq hw hfiles] at hs
    obtain ⟨s₀, hs₀, hs⟩ := FileTree.exists_of_bind_eq_ok hs
    rw [loadFrom_eq] at hs₀
    obtain ⟨layer, hlayer, hs₀⟩ := FileTree.exists_of_bind_eq_ok hs₀
    refine ⟨layer, hlayer, ?_⟩
    rw [← Except.ok.inj hs, workspaceRoot_of_ofLayers hoverlays (nodup_layerAt htables hlayer)
      (nodup_layer hoverlays h.environment) hs₀]
    cases rootIn (lib.layer h.environment) <;> rfl

/-- A machine with a workspace inside another one, seen from two directories further down. -/
def nestedWorkspaces : Host where
  files := {
    root := .dir
      [(".gosuggest", .dir [("settings.toml", .file (.text "version = 1"))]),
        ("work", .dir
          [(".gosuggest", .dir [("settings.toml", .file (.text "version = 2"))]),
            ("a", .dir [("b", .dir [])])])]
    cwd := ["work", "a", "b"] }

/-- The entries of the settings directory of the inner workspace. -/
def innerSettings : List (String × Node) :=
  [("settings.toml", .file (.text "version = 2"))]

theorem load_agrees_in_workspace_inside_another :
    nestedWorkspaces.files.WellFormed ∧ standard.Overlays ∧ standard.ReadsTables ∧
    nestedWorkspaces.HasWorkspace ["work"] innerSettings ∧
    Settings.load nestedWorkspaces = Settings.load (nestedWorkspaces.inDir ["work"]) ∧
    ∃ s, Settings.load nestedWorkspaces = .ok s ∧ s.workspaceRoot = some ⟨"/work"⟩ := by
  have hfiles : nestedWorkspaces.files.WellFormed :=
    ⟨by simp [nestedWorkspaces]; decide +kernel, ⟨_, rfl⟩⟩
  have hw : nestedWorkspaces.HasWorkspace ["work"] innerSettings := by
    refine ⟨by decide, rfl, ?_⟩
    intro d hbelow habove hne
    have hd : d ∈ [[], ["work"], ["work", "a"], ["work", "a", "b"]] :=
      (List.mem_inits d ["work", "a", "b"]).mpr habove
    simp only [List.mem_cons, List.not_mem_nil, or_false] at hd
    rcases hd with rfl | rfl | rfl | rfl
    · exact absurd hbelow (by decide)
    · exact absurd rfl hne
    · rfl
    · rfl
  obtain ⟨hload, -, hroot⟩ := @load_agrees_in_workspace standard _ _ _ hfiles hw
  refine ⟨hfiles, overlays_standard, readsTables_standard, hw, hload, ?_⟩
  have hloaded : (standard.load nestedWorkspaces).toOption.isSome = true := by decide +kernel
  cases hs : standard.load nestedWorkspaces with
  | error e =>
    rw [hs] at hloaded
    cases hloaded
  | ok s =>
    obtain ⟨layer, hlayer, hwork⟩ := hroot overlays_standard readsTables_standard s hs
    -- neither the file nor the environment names a root
    have hfile : (standard.layerAt nestedWorkspaces (settingsFileOf ["work"])).toOption.map rootIn =
        some none := by decide +kernel
    rw [hlayer] at hfile
    have hnone : rootIn layer = none := Option.some_inj.mp hfile
    rw [hnone] at hwork
    exact ⟨s, hs, hwork⟩

end SettingsLibrary

end GoResolver
