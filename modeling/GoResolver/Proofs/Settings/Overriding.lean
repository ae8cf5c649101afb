import GoResolver.Proofs.Settings.Layering

/-!
# Texts that are taken for something else

What the text of a variable stands for is guessed from the text alone, before it is known what the
setting is for.  Most plain texts stand for themselves; but `true` and `false` are truth values,
digits are a number if it has at most 64 bits, and digits around a point are a floating-point
number, perhaps with an exponent behind them.

A setting for a text does not take any of these.  So a variable sets such a setting to its own text
exactly when the text is not guessed to be something else (`loadFrom_text_variable`).  Releases like
`1.21` are guessed to be numbers, and so is the architecture `386`, whatever else the library does
(`not_every_text_is_set`).
-/

namespace GoResolver.Settings

/-! ## 1. Settings that are texts -/

/-- The settings of the build that are texts. -/
inductive TextKey where
  | goos
  | goarch
  | goVersion
  deriving Repr, DecidableEq

namespace TextKey

/-- The key of such a setting. -/
def key : TextKey → Key
  | .goos => .goos
  | .goarch => .goarch
  | .goVersion => .goVersion

/-- The text that settings have for it. -/
def value? (s : Settings) : TextKey → Option String
  | .goos => s.build.goos
  | .goarch => s.build.goarch
  | .goVersion => s.build.goVersion

end TextKey

/-- Whether a value is a truth value or a number. -/
def IsScalar : Setting → Prop
  | .boolean _ | .signed _ | .unsigned _ | .float _ => True
  | _ => False

/-- A truth value or a number is not a text. -/
theorem read_of_isScalar (t : TextKey) {v : Setting} (hv : IsScalar v) :
    t.key.kind.read v = .error ⟨[], .wrongType v "a string"⟩ := by
  cases t <;> cases v <;> first | rfl | exact hv.elim

end GoResolver.Settings

namespace GoResolver.SettingsLibrary

open Settings (Key TextKey IsScalar WellTyped read_of_isScalar)

variable {lib : SettingsLibrary} {h : Host} {path : Path} {document : List (String × Toml.Value)}
  {name text : String}

/-- A text that is guessed to be something else denotes a truth value or a number. -/
theorem ReadsPlain.isScalar (hplain : lib.ReadsPlain) (h : Variable.IsGuessed text.toList) :
    IsScalar (lib.valueOf text) := by
  rcases h with ⟨b, hb⟩ | hwhole | hfraction
  · rw [String.toList_inj.mp hb, hplain.truth]
    trivial
  · rw [hplain.whole text hwhole]
    trivial
  · obtain ⟨x, hx⟩ := hplain.fraction text hfraction
    rw [hx]
    trivial

/-! ## 2. A single variable -/

section

variable {k : Key} (hname : Variable.Names name k)
  (honly : (h.environment.filter fun e => Variable.InNamespace e.1) = [(name, text)])
include honly

theorem eq_of_only {e : String × String} (he : e ∈ h.environment)
    (hnamespace : Variable.InNamespace e.1) : e = (name, text) := by
  have hmem : e ∈ h.environment.filter fun e => Variable.InNamespace e.1 :=
    List.mem_filter.mpr ⟨he, decide_eq_true hnamespace⟩
  rw [honly] at hmem
  exact List.mem_singleton.mp hmem

variable (hoverlays : lib.Overlays) (htables : lib.ReadsTables)
  (hdocument : lib.document? h path = some document) (htyped : WellTyped document)
include hname hoverlays htables hdocument htyped

/-- The only variable decides its key, and no other one. -/
theorem loadFrom_of_read {x : k.kind.Value} (hread : k.kind.read (lib.valueOf text) = .ok x) :
    ∃ s, lib.loadFrom h path = .ok s ∧ s.value? k = some x ∧ ∀ other : Key, other ≠ k →
      s.value? other = (other.inDocument? document <|> ({} : Settings).value? other) := by
  have henvironment : lib.TypedVariables h.environment := by
    intro e he hnamespace
    obtain rfl := eq_of_only honly he hnamespace
    exact ⟨k, hname, x, hread⟩
  have hlast := Variable.lastNaming?_of_only hname honly
  obtain ⟨s, hload, hvalues⟩ := loadFrom_layered hoverlays htables hdocument htyped henvironment
  refine ⟨s, hload, ?_, fun other hother => ?_⟩
  · have hk : k.inEnvironment? lib h.environment = some x := by
      rw [Key.inEnvironment?, hlast, if_pos rfl, Option.bind_some, hread]
      rfl
    rw [hvalues, hk]
    rfl
  · have hnone : other.inEnvironment? lib h.environment = none := by
      rw [Key.inEnvironment?, hlast, if_neg hother]
      rfl
    rw [hvalues, hnone]
    rfl

/-- What is wrong with the value of the only variable is what is wrong with the settings. -/
theorem loadFrom_of_fault {fault : SettingFault}
    (hleaf : ∀ entries, lib.valueOf text ≠ .table entries)
    (hfault : k.kind.read (lib.valueOf text) = .error ⟨[], fault⟩) :
    lib.loadFrom h path = .error (.invalid .environment ⟨k.place.map .name, fault⟩) := by
  obtain ⟨file, layer, hlayer, hread, hload⟩ :=
    exists_layer_of_document? hdocument (htables.isTable hdocument) htyped
  have hkeys : lib.NamesKeys h.environment := by
    intro e he hnamespace
    obtain rfl := eq_of_only honly he hnamespace
    exact ⟨⟨k, hname⟩, hleaf⟩
  obtain ⟨hupper, hfind⟩ := find?_layer hoverlays hkeys
  have hlast := Variable.lastNaming?_of_only hname honly
  have hvalue : k.find? Setting.table? (lib.layer h.environment) = some (lib.valueOf text) := by
    rw [hfind, hlast, if_pos rfl]
    rfl
  have hothers : ∀ other : Key, other ≠ k →
      other.read (lib.layer h.environment) = .ok none := by
    intro other hother
    rw [Settings.Key.read_eq, hfind, hlast, if_neg hother]
    rfl
  rw [hload]
  exact Settings.ofLayers_of_fault hoverlays hlayer hupper hread hvalue hothers hfault file

end

/-- **A setting that is a text has the text of its variable, unless this is guessed to be something
else**; then no settings can be loaded. -/
theorem loadFrom_text_variable (hoverlays : lib.Overlays) (htables : lib.ReadsTables)
    (hreads : lib.ReadsPlain) (t : TextKey) (hdocument : lib.document? h path = some document)
    (htyped : WellTyped document) (hname : Variable.Names name t.key)
    (honly : (h.environment.filter fun e => Variable.InNamespace e.1) = [(name, text)])
    (hplain : Variable.IsPlain text.toList) :
    (¬ Variable.IsGuessed text.toList →
      ∃ s, lib.loadFrom h path = .ok s ∧ t.value? s = some text ∧ ∀ k : Key, k ≠ t.key →
        s.value? k = (k.inDocument? document <|> ({} : Settings).value? k)) ∧
    (Variable.IsGuessed text.toList →
      lib.loadFrom h path = .error (.invalid .environment
        ⟨t.key.place.map .name, .wrongType (lib.valueOf text) "a string"⟩)) := by
  constructor
  · intro hnot
    cases t <;>
    · have hread : Kind.text.read (lib.valueOf text) = .ok text := by
        rw [hreads.text text hplain hnot]
        rfl
      exact loadFrom_of_read hname honly hoverlays htables hdocument htyped hread
  · intro hguess
    have hscalar := hreads.isScalar hguess
    have hleaf : ∀ entries, lib.valueOf text ≠ .table entries := by
      intro entries hentries
      rw [hentries] at hscalar
      exact hscalar
    exact loadFrom_of_fault hname honly hoverlays htables hdocument htyped hleaf
      (read_of_isScalar t hscalar)

/-- An environment with one variable beside the home directory. -/
def soleEnvironment (name text : String) : List (String × String) :=
  [("HOME", "/home"), (name, text)]

theorem loadFrom_text_variable_riscv64 :
    standard.Overlays ∧ standard.ReadsTables ∧ standard.ReadsPlain ∧
    standard.document? (Settings.mixedHost (soleEnvironment "gs_build__goarch" "riscv64"))
      ⟨"s.toml"⟩ = some Settings.mixedDraft.entries ∧
    WellTyped Settings.mixedDraft.entries ∧
    Variable.Names "gs_build__goarch" TextKey.goarch.key ∧
    ((soleEnvironment "gs_build__goarch" "riscv64").filter fun e => Variable.InNamespace e.1) =
      [("gs_build__goarch", "riscv64")] ∧
    Variable.IsPlain "riscv64".toList ∧ ¬ Variable.IsGuessed "riscv64".toList ∧
    ∃ s, Settings.loadFrom (Settings.mixedHost (soleEnvironment "gs_build__goarch" "riscv64"))
        ⟨"s.toml"⟩ = .ok s ∧
      TextKey.goarch.value? s = some "riscv64" ∧ ∀ k : Key, k ≠ .goarch →
        s.value? k = (k.inDocument? Settings.mixedDraft.entries <|> ({} : Settings).value? k) := by
  have hdocument :=
    Settings.document?_mixedHost (soleEnvironment "gs_build__goarch" "riscv64")
  have hname : Variable.Names "gs_build__goarch" TextKey.goarch.key := by decide +kernel
  have honly : ((soleEnvironment "gs_build__goarch" "riscv64").filter
      fun e => Variable.InNamespace e.1) = [("gs_build__goarch", "riscv64")] := by decide +kernel
  have hplain : Variable.IsPlain "riscv64".toList := by decide +kernel
  have hnot : ¬ Variable.IsGuessed "riscv64".toList := by
    rintro (⟨b, hb⟩ | hnumber)
    · cases b <;> exact absurd hb (by decide)
    · obtain ⟨c, hc, hkind⟩ := Variable.head_of_number hnumber
      cases hc
      rcases hkind with hkind | hkind <;> cases hkind
  exact ⟨overlays_standard, readsTables_standard, readsPlain_standard, hdocument,
    Settings.wellTyped_mixedDraft, hname, honly, hplain, hnot,
    (loadFrom_text_variable overlays_standard readsTables_standard readsPlain_standard .goarch
      hdocument Settings.wellTyped_mixedDraft hname honly hplain).1 hnot⟩

/-- A host without a settings file, and with a number for the architecture. -/
def numberedHost : Host where
  files := ⟨.dir [], []⟩
  environment := soleEnvironment "GS_BUILD__GOARCH" "386"

/-- **Not every text that is plain can be set**, with any library that guesses as it does: the
architecture `386` cannot, even where there is no settings file. -/
theorem not_every_text_is_set :
    ¬ ∃ lib : SettingsLibrary, lib.Overlays ∧ lib.ReadsTables ∧ lib.ReadsPlain ∧
      ∀ (t : TextKey) (h : Host) (path : Path) (document : List (String × Toml.Value))
        (name text : String), lib.document? h path = some document → WellTyped document →
        Variable.Names name t.key →
        (h.environment.filter fun e => Variable.InNamespace e.1) = [(name, text)] →
        Variable.IsPlain text.toList →
        ∃ s, lib.loadFrom h path = .ok s ∧ t.value? s = some text := by
  rintro ⟨lib, hoverlays, htables, hreads, hevery⟩
  have hnone : numberedHost.findSettings? ⟨"none.toml"⟩ = none := by decide +kernel
  have hdocument : lib.document? numberedHost ⟨"none.toml"⟩ = some [] := by
    rw [document?, hnone]
  have htyped : WellTyped [] := Settings.wellTyped_of_keys fun e he => absurd he List.not_mem_nil
  have hname : Variable.Names "GS_BUILD__GOARCH" TextKey.goarch.key := by decide +kernel
  have honly : (numberedHost.environment.filter fun e => Variable.InNamespace e.1) =
      [("GS_BUILD__GOARCH", "386")] := by decide +kernel
  obtain ⟨s, hload, -⟩ := hevery .goarch numberedHost _ _ _ _ hdocument htyped hname honly
    (by decide +kernel)
  -- the text is taken for a number
  have hvalue := hreads.whole "386" (by decide +kernel)
  have hleaf : ∀ entries, lib.valueOf "386" ≠ .table entries := by
    intro entries hentries
    rw [hvalue] at hentries
    cases hentries
  have hfault := read_of_isScalar .goarch (v := lib.valueOf "386") (by rw [hvalue]; trivial)
  rw [loadFrom_of_fault hname honly hoverlays htables hdocument htyped hleaf hfault] at hload
  cases hload

end GoResolver.SettingsLibrary
