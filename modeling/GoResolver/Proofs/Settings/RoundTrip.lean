import GoResolver.Proofs.FileTree.Writing
import GoResolver.Proofs.Settings.Draft
import GoResolver.Proofs.Settings.Standard

/-!
# Saved settings are loaded again

Settings that were saved are found in their file, read from its text, and not changed by any other
layer:

1. The current directory can be reached from the root, by the path that it has (`place_currentDir`).
   So a file that a relative path leads to is found behind that path too (`find_join_currentDir`),
   and that is where a settings file is looked up first.
2. Saving only adds to the tree, so the current directory is still where it was, and the file is
   found with the text that was written.  The library reads the text back as the document that it
   wrote, and every key has its own value there, over the defaults and under an empty environment.

A relative path must leave room for the path of the current directory before it.  One that is only
just short enough to be written to is too long to be looked up, and the settings that come back are
the defaults (`not_reloaded_from_a_long_path`).
-/

namespace GoResolver

/-! ## 1. The path of the current directory -/

namespace Path

theorem fits_of_fits_join {p q : Path} (hq : q.isAbsolute = false) (h : (p.join q).Fits) :
    p.Fits := by
  rw [join, hq, if_neg Bool.false_ne_true] at h
  have hsize : p.text.utf8ByteSize ≤ (p.text ++ q.text).utf8ByteSize ∧
      p.text.utf8ByteSize ≤ (p.text ++ "/" ++ q.text).utf8ByteSize := by
    simp only [String.utf8ByteSize_append]
    omega
  split at h
  · exact hsize.1.trans h
  · exact hsize.2.trans h

end Path

namespace Host

variable {h : Host} {p : Path}

/-- **The path of the current directory leads to it**, unless it is too long. -/
theorem place_currentDir (hfiles : h.files.WellFormed) (hfits : h.currentDir.Fits) :
    h.files.place h.currentDir = .ok h.files.cwd := by
  obtain ⟨entries, hcwd⟩ := hfiles.cwd
  have hnames : ∀ s ∈ h.files.cwd, IsEntryName s := hfiles.names.of_get? hcwd
  have hcomponents : h.currentDir.components = .root :: h.files.cwd.map .name := by
    have hstep : ∀ c ∈ h.files.cwd.map Component.name, Path.IsStep c := by
      intro c hc
      obtain ⟨s, hs, rfl⟩ := List.mem_map.mp hc
      exact (hnames s hs).1
    have hslash := Path.components_slash_slashed_segments hstep
    rwa [Path.map_segment_map_name] at hslash
  obtain ⟨hlead, hsteps⟩ := Path.lead_and_steps_of_components_eq (.inr rfl)
    (fun c hc => by obtain ⟨s, -, rfl⟩ := List.mem_map.mp hc; simp) hcomponents
  have hstart : h.files.start h.currentDir = [] := by
    rw [FileTree.start, Path.isAbsolute_iff_lead_eq_root.mpr hlead, if_pos rfl]
  have hrefusal : h.currentDir.refusal? = none := by
    refine FileTree.refusal?_eq_none_iff.mpr ⟨?_, ?_, hfits⟩
    · rw [ne_eq, Path.text_eq_empty_iff, hcomponents]
      exact List.cons_ne_nil _ _
    · rw [Path.mem_text_iff (by decide) (by decide), hsteps]
      rintro ⟨c, hc, hmem⟩
      obtain ⟨s, hs, rfl⟩ := List.mem_map.mp hc
      exact (hnames s hs).2.1 hmem
  rw [FileTree.place_eq_ok_iff]
  refine ⟨hrefusal, ?_⟩
  rw [FileTree.walk_eq_ok_iff hcwd, Path.filter_segments]
  have hread : h.currentDir.segments.filterMap Path.component? = h.files.cwd.map .name := hsteps
  rw [hread, Path.map_segment_map_name, hstart]
  exact FileTree.walk_names hfiles.names hfiles.cwd

/-- What a relative path leads to is found behind the path of the current directory too. -/
theorem find_join_currentDir (hplace : h.files.place h.currentDir = .ok h.files.cwd)
    (hcwd : h.files.HasDir h.files.cwd) (hrel : p.isAbsolute = false)
    (hfits : (h.currentDir.join p).Fits) {node : Node} (hfind : h.files.find p = .ok node) :
    h.files.find (h.currentDir.join p) = .ok node := by
  obtain ⟨entries, hentries⟩ := hcwd
  obtain ⟨q, hq, hnode⟩ := FileTree.find_eq_ok_iff.mp hfind
  obtain ⟨hrefusal, hwalk⟩ := FileTree.place_eq_ok_iff.mp hq
  have hjoined := FileTree.refusal?_join (FileTree.place_eq_ok_iff.mp hplace).1 hrel
    (FileTree.refusal?_eq_none_iff.mp hrefusal).2.1 hfits
  have hstart : h.files.start p = h.files.cwd := by
    rw [FileTree.start, hrel, if_neg Bool.false_ne_true]
  refine FileTree.find_eq_ok_iff.mpr ⟨q, ?_, hnode⟩
  rw [FileTree.place_eq_ok_iff]
  refine ⟨hjoined, ?_⟩
  rw [hstart] at hwalk
  rw [← hwalk]
  exact FileTree.walk_child hplace hentries hrel

end Host

/-! ## 2. Saving and loading -/

namespace FileTree

variable {t t' : FileTree}

/-- A file that was written together with its directories is found again. -/
theorem find_of_writeWithParents (ht : t.WellFormed) {dir file : Path} {text : String}
    (h : t.writeWithParents dir file text = .ok t') :
    Extends t t' ∧ t'.find file = .ok (.file (.text text)) := by
  rw [writeWithParents] at h
  split at h
  · cases h
  · next t₁ hdirs =>
    split at h
    · cases h
    · next t₂ hwrite =>
      have hextends := extends_of_makeDirs hdirs
      have hstart : (t₁.root.get? (t₁.start file)).isSome = true := by
        obtain ⟨entries, hentries⟩ := hextends.hasDir ht.cwd
        rw [start, hextends.cwd_eq]
        split
        · rfl
        · rw [hentries]
          rfl
      obtain ⟨hextends', hfind⟩ := find_of_writeText hstart hwrite
      rw [← Except.ok.inj h]
      exact ⟨hextends.trans hextends', hfind⟩

end FileTree

namespace SettingsLibrary

variable {lib : SettingsLibrary} {h : Host} {s : Settings} {saved : FileTree} {path : Path}

/-- The file that settings were saved to is the one that is looked up. -/
theorem exists_findSettings?_of_save (hfiles : h.files.WellFormed)
    (hfits : (h.currentDir.join path).Fits) (hsave : lib.save s h.files path = .ok saved) :
    ∃ file, Host.findSettings? { h with files := saved } path = some file ∧
      saved.find file = .ok (.file (.text (lib.print s.draft))) := by
  obtain ⟨hextends, hfind⟩ : h.files.Extends saved ∧
      saved.find path = .ok (.file (.text (lib.print s.draft))) := by
    rw [save] at hsave
    split at hsave
    · cases hsave
    · exact FileTree.find_of_writeWithParents hfiles hsave
  have hisFile : ∀ {file}, saved.find file = .ok (.file (.text (lib.print s.draft))) →
      saved.isFile file = true := by
    intro file hfile
    rw [FileTree.isFile, hfile]
  rw [Host.findSettings?]
  cases habs : path.isAbsolute with
  | true =>
    rw [if_pos rfl, if_pos (hisFile hfind)]
    exact ⟨path, rfl, hfind⟩
  | false =>
    have hdir : Host.currentDir { h with files := saved } = h.currentDir := by
      rw [Host.currentDir, Host.currentDir, hextends.cwd_eq]
    have hplace : saved.place (Host.currentDir { h with files := saved }) = .ok saved.cwd := by
      rw [hdir, hextends.cwd_eq]
      exact hextends.place_eq_ok (Host.place_currentDir hfiles (Path.fits_of_fits_join habs hfits))
    have hcwd : saved.HasDir saved.cwd := hextends.cwd_eq ▸ hextends.hasDir hfiles.cwd
    have hjoined := Host.find_join_currentDir (h := { h with files := saved }) hplace hcwd habs
      (hdir ▸ hfits) hfind
    -- the current directory is the first one that is searched
    rw [if_neg Bool.false_ne_true, Path.ancestors, List.map_cons,
      List.find?_cons_of_pos (hisFile hjoined)]
    exact ⟨_, rfl, hjoined⟩

/-- The document in that file is the one of the settings. -/
theorem document?_of_save (hreads : lib.ReadsBack) (hversion : s.version < Text.word32Limit)
    (hfiles : h.files.WellFormed) (hfits : (h.currentDir.join path).Fits)
    (hsave : lib.save s h.files path = .ok saved) :
    lib.document? { h with files := saved } path = some s.draft.entries := by
  obtain ⟨file, hfound, hfile⟩ := exists_findSettings?_of_save hfiles hfits hsave
  rw [document?, hfound]
  dsimp only
  rw [FileTree.readText, hfile]
  exact hreads s.draft (Settings.isPlain_draft hversion)

/-- **Settings that were saved are loaded again**, every one as it was, if the path is short enough
to be looked up from the root and the environment has no settings of its own. -/
theorem loadFrom_save (hoverlays : lib.Overlays) (hreads : lib.ReadsBack)
    (hversion : s.version < Text.word32Limit) (hfiles : h.files.WellFormed)
    (henvironment : ∀ e ∈ h.environment, ¬ Variable.InNamespace e.1)
    (hfits : (h.currentDir.join path).Fits) (hsave : lib.save s h.files path = .ok saved) :
    lib.loadFrom { h with files := saved } path = .ok s := by
  obtain ⟨file, layer, hlayer, hread, hload⟩ :=
    exists_layer_of_document? (document?_of_save hreads hversion hfiles hfits hsave)
      (Settings.isPlain_draft hversion).isTable (Settings.wellTyped_draft hversion)
  obtain ⟨loaded, hloaded, hvalues⟩ :=
    Settings.exists_ofLayers_eq_ok hoverlays hlayer Settings.shaped_nil hread
      Settings.Key.read_nil file
  have hsame : loaded = s := by
    refine Settings.eq_of_value? fun k => ?_
    rw [hvalues, Settings.inDocument?_draft hversion]
    -- a key without a value has no default
    cases k <;> first | rfl | (cases hvalue : s.value? _ <;> rfl)
  rw [hload, layer_eq_nil hoverlays henvironment, hloaded, hsame]

end SettingsLibrary

namespace Settings

open SettingsLibrary (standard)

/-- Settings with some of the values that may be left out. -/
def partlySet : Settings where
  version := 3
  debug := true
  build := { goroot := some ⟨""⟩, gopath := [⟨"go"⟩, ⟨"/srv/go"⟩], goVersion := some "1.22" }

/-- A host with an empty directory, which is the current one. -/
def emptyWorkspace : Host where
  files := ⟨.dir [("work", .dir [])], ["work"]⟩
  environment := [("HOME", "/home"), ("GOPATH", "/go")]

/-- The disk after a file was saved in a new directory in it. -/
def savedWorkspace : FileTree :=
  ⟨.dir [("work", .dir [("conf", .dir [("s.toml", .file (.text partlySet.draft.text))])])],
    ["work"]⟩

theorem loadFrom_save_partlySet :
    standard.Overlays ∧ standard.ReadsBack ∧ emptyWorkspace.files.WellFormed ∧
    (∀ e ∈ emptyWorkspace.environment, ¬ Variable.InNamespace e.1) ∧
    partlySet.save emptyWorkspace.files ⟨"conf/s.toml"⟩ = .ok savedWorkspace ∧
    loadFrom { emptyWorkspace with files := savedWorkspace } ⟨"conf/s.toml"⟩ = .ok partlySet := by
  have hfiles : emptyWorkspace.files.WellFormed :=
    ⟨by simp [emptyWorkspace]; decide +kernel, ⟨_, rfl⟩⟩
  have henvironment : ∀ e ∈ emptyWorkspace.environment, ¬ Variable.InNamespace e.1 := by
    decide +kernel
  have hsave : partlySet.save emptyWorkspace.files ⟨"conf/s.toml"⟩ = .ok savedWorkspace := rfl
  exact ⟨SettingsLibrary.overlays_standard, SettingsLibrary.readsBack_standard, hfiles,
    henvironment, hsave,
    SettingsLibrary.loadFrom_save SettingsLibrary.overlays_standard
      SettingsLibrary.readsBack_standard (by decide) hfiles henvironment (by decide +kernel) hsave⟩

end Settings

/-! ## 3. A path that is too long to be looked up -/

namespace Path

/-- The file `x` of the current directory, behind a number of points. -/
def dotted : Nat → Path
  | 0 => ⟨"x"⟩
  | n + 1 => ⟨"." ++ "/" ++ (dotted n).text⟩

theorem segments_dotted (n : Nat) : (dotted n).segments = List.replicate n "." ++ ["x"] := by
  induction n with
  | zero => decide +kernel
  | succ n ih =>
    have hpoint : segments ⟨"."⟩ = ["."] := by decide +kernel
    rw [dotted, segments_append_slash, hpoint, ih, List.replicate_succ]
    rfl

theorem utf8ByteSize_dotted (n : Nat) : (dotted n).text.utf8ByteSize = 2 * n + 1 := by
  induction n with
  | zero => decide +kernel
  | succ n ih =>
    have hpoint : ("." : String).utf8ByteSize = 1 := by decide +kernel
    have hslash : ("/" : String).utf8ByteSize = 1 := by decide +kernel
    rw [dotted, String.utf8ByteSize_append, String.utf8ByteSize_append, ih, hpoint, hslash]
    omega

theorem isAbsolute_dotted (n : Nat) : (dotted (n + 1)).isAbsolute = false := by
  simp [isAbsolute, dotted]

theorem lead_dotted (n : Nat) : (dotted (n + 1)).lead = some .here := by
  rw [lead, isAbsolute_dotted, segments_dotted, List.replicate_succ, List.cons_append,
    List.head?_cons]
  rfl

theorem steps_dotted (n : Nat) : (dotted n).steps = [.name "x"] := by
  have hpoint : component? "." = none := by decide
  have hx : component? "x" = some (.name "x") := by decide
  rw [steps, segments_dotted, List.filterMap_append, List.filterMap_replicate_of_none hpoint,
    List.nil_append, List.filterMap_cons_some hx, List.filterMap_nil]

theorem parent?_dotted (n : Nat) : (dotted (n + 1)).parent? = some ⟨"."⟩ := by
  have hcomponents : (dotted (n + 1)).components = [.here, .name "x"] := by
    rw [components_eq, lead_dotted, steps_dotted]
    rfl
  rw [parent?, hcomponents, floor, isAbsolute_dotted, take, lead_dotted]
  simp [cut, takeBody, spell]

theorem target_dotted (n : Nat) :
    FileTree.target (dotted n) = (List.replicate n ".", some "x") := by
  have hx : ¬ ("x" == "") = true := by decide
  rw [FileTree.target, segments_dotted, List.reverse_append, List.reverse_singleton,
    List.singleton_append, List.dropWhile_cons_of_neg (p := (· == "")) hx, List.reverse_cons,
    List.reverse_reverse, List.dropLast_concat, List.getLast?_concat]

theorem getLast?_dotted (n : Nat) : (dotted n).text.toList.getLast? = some 'x' := by
  induction n with
  | zero => decide +kernel
  | succ n ih =>
    rw [dotted, String.toList_append, List.getLast?_append, ih]
    rfl

theorem refusal?_dotted {n : Nat} (h : (dotted n).Fits) : (dotted n).refusal? = none := by
  refine FileTree.refusal?_eq_none_iff.mpr ⟨?_, ?_, h⟩
  · intro hempty
    have hlast := getLast?_dotted n
    rw [hempty] at hlast
    cases hlast
  · rw [mem_text_iff (by decide) (by decide), steps_dotted]
    decide

end Path

namespace FileTree

variable {t : FileTree}

/-- Points lead nowhere else. -/
theorem walk_replicate {place : List String} (hplace : t.HasDir place) (n : Nat) :
    t.walk place (List.replicate n ".") = .ok place := by
  obtain ⟨entries, hentries⟩ := hplace
  induction n with
  | zero => rfl
  | succ n ih =>
    rw [List.replicate_succ, walk, step_of_isTrivial hentries (by decide)]
    exact ih

end FileTree

namespace Settings

open SettingsLibrary (standard)

/-- A disk without anything on it. -/
def emptyDisk : FileTree := ⟨.dir [], []⟩

/-- The disk after a file was saved on it. -/
def savedDisk (s : Settings) : FileTree := ⟨.dir [("x", .file (.text s.draft.text))], []⟩

theorem save_dotted (s : Settings) {n : Nat} (h : (Path.dotted (n + 1)).Fits) :
    s.save emptyDisk (Path.dotted (n + 1)) = .ok (savedDisk s) := by
  have hdirs : emptyDisk.makeDirs ⟨"."⟩ = .ok emptyDisk := rfl
  have hstart : emptyDisk.start (Path.dotted (n + 1)) = [] := by
    rw [FileTree.start]
    split <;> rfl
  have hwrite : emptyDisk.writeText (Path.dotted (n + 1)) s.draft.text = .ok (savedDisk s) := by
    rw [FileTree.writeText, Path.refusal?_dotted h, Path.target_dotted]
    dsimp only
    rw [hstart, FileTree.walk_replicate ⟨[], rfl⟩, Path.getLast?_dotted]
    rfl
  rw [save, SettingsLibrary.save, Path.parent?_dotted]
  show emptyDisk.writeWithParents ⟨"."⟩ (Path.dotted (n + 1)) s.draft.text = .ok (savedDisk s)
  rw [FileTree.writeWithParents, hdirs]
  dsimp only
  rw [hwrite]

/-- Seen from the root, a path is one byte longer. -/
theorem findSettings?_dotted (s : Settings) {n : Nat} (h : pathLimit < 2 * n + 2) :
    Host.findSettings? { files := savedDisk s } (Path.dotted n) = none := by
  have habs : (Path.dotted n).isAbsolute = false := by
    cases n with
    | zero => decide +kernel
    | succ n => exact Path.isAbsolute_dotted n
  have hdir : Host.currentDir { files := savedDisk s } = ⟨"/"⟩ := rfl
  have hancestors : Path.ancestors ⟨"/"⟩ = [⟨"/"⟩] := by decide +kernel
  have hlong : ¬ (Path.join ⟨"/"⟩ (Path.dotted n)).Fits := by
    have hslash : ("/" : String).utf8ByteSize = 1 := by decide +kernel
    rw [Path.Fits, Path.join, habs, if_neg Bool.false_ne_true, if_pos (.inr (by decide +kernel)),
      String.utf8ByteSize_append, Path.utf8ByteSize_dotted, hslash]
    omega
  rw [Host.findSettings?, habs, if_neg Bool.false_ne_true, hdir, hancestors, List.map_singleton,
    List.find?_singleton, FileTree.isFile_of_not_fits hlong]
  rfl

/-- Where no settings file is found, the settings are the defaults. -/
theorem loadFrom_of_not_found {h : Host} {path : Path} (henvironment : h.environment = [])
    (hnone : h.findSettings? path = none) : loadFrom h path = .ok {} := by
  rw [loadFrom, SettingsLibrary.loadFrom, hnone, henvironment]
  rfl

/-- **Settings are not always loaded again**, though layers are laid over each other as they should
be and documents are read back.  This path has 4095 bytes, the most that a path can have, and one
more when it is seen from the root. -/
theorem not_reloaded_from_a_long_path :
    standard.Overlays ∧ standard.ReadsBack ∧ emptyDisk.WellFormed ∧
    ({ debug := true } : Settings).save emptyDisk (Path.dotted 2047) =
      .ok (savedDisk { debug := true }) ∧
    loadFrom { files := savedDisk { debug := true } } (Path.dotted 2047) = .ok { debug := false } ∧
    loadFrom { files := savedDisk { debug := true } } (Path.dotted 2047) ≠
      .ok { debug := true } := by
  have hfits : (Path.dotted 2047).Fits := by
    rw [Path.Fits, Path.utf8ByteSize_dotted]
    decide
  have hnotFound := findSettings?_dotted { debug := true } (n := 2047) (by decide)
  have hload := loadFrom_of_not_found rfl hnotFound
  refine ⟨SettingsLibrary.overlays_standard, SettingsLibrary.readsBack_standard,
    ⟨by simp [emptyDisk], ⟨[], rfl⟩⟩, save_dotted _ hfits, hload, ?_⟩
  rw [hload]
  intro h
  cases h

end Settings

end GoResolver
