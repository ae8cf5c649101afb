import GoResolver.Proofs.Settings.Files
import GoResolver.Proofs.Settings.Standard

/-!
# Settings from three layers

Each setting is decided on its own: it has the value of the variable that names it, or else the
value in the settings file, or else its default (`loadFrom_layered`).  Nothing that is said of one
setting changes another one, though the layers are laid over each other table by table.

That the settings can be loaded at all takes a file that is well typed and variables that name
settings, with texts that are values of the right kind.  What values the texts are, and what a file
says, is left to the library; it only has to lay layers over each other name by name, and not to
read two entries of one name in a table.
-/

namespace GoResolver

/-! ## 1. The environment -/

/-- The value of a key in the variable that names it, of several ones in the last. -/
def Settings.Key.inEnvironment? (lib : SettingsLibrary) (k : Key)
    (environment : List (String × String)) : Option k.kind.Value :=
  (Variable.lastNaming? environment k).bind fun text =>
    (k.kind.read (lib.valueOf text)).toOption

/-- No kind has tables for values. -/
theorem Kind.read_table_ne_ok (kind : Kind) (entries : Layer) (x : kind.Value) :
    kind.read (.table entries) ≠ .ok x := by
  cases kind <;> exact nofun

/-- A variable that names a key is one of the environment. -/
theorem Variable.exists_mem_of_lastNaming? {environment : List (String × String)}
    {k : Settings.Key} {text : String} (htext : lastNaming? environment k = some text) :
    ∃ e ∈ environment, Names e.1 k ∧ e.2 = text := by
  obtain ⟨e, he, rfl⟩ := Option.map_eq_some_iff.mp htext
  exact ⟨e, List.mem_reverse.mp (List.mem_of_find?_eq_some he), by simpa using List.find?_some he,
    rfl⟩

namespace SettingsLibrary

open Settings (Key WellTyped)

/-- Each of the program's own variables names a key, and its text is that of a value of the key's
kind. -/
def TypedVariables (lib : SettingsLibrary) (environment : List (String × String)) : Prop :=
  ∀ e ∈ environment, Variable.InNamespace e.1 →
    ∃ k : Key, Variable.Names e.1 k ∧ ∃ x, k.kind.read (lib.valueOf e.2) = .ok x

variable {lib : SettingsLibrary} {h : Host} {path : Path} {document : List (String × Toml.Value)}
  {environment : List (String × String)}

theorem TypedVariables.namesKeys (henvironment : lib.TypedVariables environment) :
    lib.NamesKeys environment := by
  intro e he hnamespace
  obtain ⟨k, hk, x, hx⟩ := henvironment e he hnamespace
  refine ⟨⟨k, hk⟩, fun entries hentries => ?_⟩
  rw [hentries] at hx
  exact Kind.read_table_ne_ok k.kind entries x hx

/-- Each key is read from the layer of the environment as it is in its variable. -/
theorem read_layer (hlib : lib.Overlays) (henvironment : lib.TypedVariables environment)
    (k : Key) : k.read (lib.layer environment) = .ok (k.inEnvironment? lib environment) := by
  rw [Settings.Key.read_eq, (find?_layer hlib henvironment.namesKeys).2, Key.inEnvironment?]
  cases htext : Variable.lastNaming? environment k with
  | none => rfl
  | some text =>
    obtain ⟨e, he, hname, rfl⟩ := Variable.exists_mem_of_lastNaming? htext
    obtain ⟨named, hnamed, x, hx⟩ := henvironment e he (Variable.inNamespace_of_names hname)
    obtain rfl := hname.eq hnamed
    rw [Option.map_some, Option.bind_some]
    dsimp only
    rw [hx]
    rfl

/-! ## 2. All layers -/

/-- **Each setting is that of its variable, or else that of the file, or else the default**,
whatever all other settings are. -/
theorem loadFrom_layered (hoverlays : lib.Overlays) (htables : lib.ReadsTables)
    (hdocument : lib.document? h path = some document) (htyped : WellTyped document)
    (henvironment : lib.TypedVariables h.environment) :
    ∃ s, lib.loadFrom h path = .ok s ∧ ∀ k : Key, s.value? k =
      (k.inEnvironment? lib h.environment <|> k.inDocument? document <|>
        ({} : Settings).value? k) := by
  obtain ⟨file, layer, hlayer, hread, hload⟩ :=
    exists_layer_of_document? hdocument (htables.isTable hdocument) htyped
  rw [hload]
  exact Settings.exists_ofLayers_eq_ok hoverlays hlayer
    (find?_layer hoverlays henvironment.namesKeys).1 hread (read_layer hoverlays henvironment) file

end SettingsLibrary

namespace Settings

open SettingsLibrary (standard)

/-- A settings file with some settings. -/
def mixedDraft : Toml.Draft where
  fields := [("debug", .truth true)]
  tables := [("build", [("goarch", .text "arm64"), ("build_tags", .texts ["a", "b"])])]

/-- A host with the settings file. -/
def mixedHost (environment : List (String × String)) : Host where
  files := ⟨.dir [("work", .dir [("s.toml", .file (.text mixedDraft.text))])], ["work"]⟩
  environment := environment

theorem isPlain_mixedDraft : mixedDraft.IsPlain where
  fields := ⟨by decide +kernel, by simp [mixedDraft, Toml.Datum.Fits], by decide⟩
  tables := by
    rw [mixedDraft, List.forall_mem_singleton]
    exact ⟨by decide +kernel, by decide +kernel, by simp [Toml.Datum.Fits], by decide⟩
  nodup := by decide

theorem document?_mixedHost (environment : List (String × String)) :
    standard.document? (mixedHost environment) ⟨"s.toml"⟩ = some mixedDraft.entries := by
  have hfile : (mixedHost []).findSettings? ⟨"s.toml"⟩ = some ⟨"/work/s.toml"⟩ := by
    decide +kernel
  have htext : (mixedHost environment).files.readText ⟨"/work/s.toml"⟩ = .ok mixedDraft.text := rfl
  have hsame : (mixedHost environment).findSettings? = (mixedHost []).findSettings? := rfl
  rw [SettingsLibrary.document?, hsame, hfile]
  dsimp only
  rw [htext]
  exact SettingsLibrary.readsBack_standard _ isPlain_mixedDraft

theorem wellTyped_mixedDraft : WellTyped mixedDraft.entries := by
  have hentries : mixedDraft.entries =
      [("debug", .boolean true),
        ("build", .table
          [("goarch", .string "arm64"), ("build_tags", .array [.string "a", .string "b"])])] := rfl
  refine wellTyped_of_keys ?_
  rw [hentries, List.forall_mem_cons, List.forall_mem_singleton]
  refine ⟨.inl ⟨.debug, rfl, rfl, rfl⟩, .inr ⟨by decide, _, rfl, ?_⟩⟩
  rw [List.forall_mem_cons, List.forall_mem_singleton]
  exact ⟨⟨.goarch, rfl, rfl, rfl⟩, ⟨.buildTags, rfl, rfl, rfl⟩⟩

/-- Variables for two other settings and for one of those in the file. -/
def mixedEnvironment : List (String × String) :=
  [("HOME", "/home"), ("GS_VERSION", "7"), ("GS_BUILD__GO_VERSION", "go1.22"),
    ("gs_Build__Build_Tags", "[x, \"y\"]")]

theorem typedVariables_mixedEnvironment : standard.TypedVariables mixedEnvironment := by
  have hread : ∀ {α : Type} {x : Setting.Typed α} {a : α}, x.toOption = some a → x = .ok a := by
    intro α x a hx
    cases x with
    | error e => cases hx
    | ok b => exact congrArg Except.ok (Option.some_inj.mp hx)
  intro e he hnamespace
  simp only [mixedEnvironment, List.mem_cons, List.not_mem_nil, or_false] at he
  rcases he with rfl | rfl | rfl | rfl
  · exact absurd hnamespace (by decide +kernel)
  · exact ⟨.version, by decide +kernel, 7, hread (by decide +kernel)⟩
  · exact ⟨.goVersion, by decide +kernel, "go1.22", hread (by decide +kernel)⟩
  · exact ⟨.buildTags, by decide +kernel, ["x", "y"], hread (by decide +kernel)⟩

theorem loadFrom_layered_mixed :
    standard.Overlays ∧ standard.ReadsTables ∧
    standard.document? (mixedHost mixedEnvironment) ⟨"s.toml"⟩ = some mixedDraft.entries ∧
    WellTyped mixedDraft.entries ∧ standard.TypedVariables mixedEnvironment ∧
    ∃ s, loadFrom (mixedHost mixedEnvironment) ⟨"s.toml"⟩ = .ok s ∧ ∀ k : Key, s.value? k =
      (k.inEnvironment? standard mixedEnvironment <|> k.inDocument? mixedDraft.entries <|>
        ({} : Settings).value? k) := by
  have hdocument := document?_mixedHost mixedEnvironment
  exact ⟨SettingsLibrary.overlays_standard, SettingsLibrary.readsTables_standard, hdocument,
    wellTyped_mixedDraft, typedVariables_mixedEnvironment,
    SettingsLibrary.loadFrom_layered SettingsLibrary.overlays_standard
      SettingsLibrary.readsTables_standard hdocument wellTyped_mixedDraft
      typedVariables_mixedEnvironment⟩

end Settings

end GoResolver
