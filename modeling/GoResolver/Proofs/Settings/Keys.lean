import GoResolver.Proofs.Settings.Layers
import GoResolver.Settings.Load
import Mathlib.Tactic.Choose

/-!
# Settings key by key

Settings are a record of records, and all that is ever written, in a file or in a variable, is the
value of some of its leaves.  A `Key` is such a leaf, with the place that it has in a layer and the
kind of its value.

The settings in a layer are decided key by key.  When the value of every key can be read, the
settings are those with these values (`asSettings_of_reads`).  When the value of a single one cannot
be read, this is what the settings fail with, at the key's own place (`asSettings_of_fault`).
-/

namespace GoResolver

/-! ## 1. Kinds -/

/-- What a setting is for: a number of 32 bits, a truth value, a text, a path, or a list of these.
-/
inductive Kind where
  | word32
  | truth
  | text
  | path
  | texts
  | paths
  deriving Repr, DecidableEq

namespace Kind

/-- The values of a kind. -/
abbrev Value : Kind → Type
  | .word32 => Nat
  | .truth => Bool
  | .text => String
  | .path => Path
  | .texts => List String
  | .paths => List Path

/-- Reads a value of a kind. -/
def read : (kind : Kind) → Setting → Setting.Typed kind.Value
  | .word32 => Setting.asWord32
  | .truth => Setting.asBool
  | .text => Setting.asText
  | .path => Setting.asPath
  | .texts => Setting.asList Setting.asText
  | .paths => Setting.asList Setting.asPath

end Kind

namespace Settings

/-! ## 2. Keys -/

/-- The leaves of the settings. -/
inductive Key where
  | version
  | workspaceRoot
  | debug
  | proposeBuiltins
  | suggestDebug
  | source
  | goroot
  | gopath
  | goos
  | goarch
  | buildTags
  | cgoEnabled
  | goVersion
  deriving Repr, DecidableEq

namespace Key

/-- The name of the record that a key belongs to, unless that is all settings. -/
def group? : Key → Option String
  | .version | .workspaceRoot | .debug => none
  | .proposeBuiltins | .suggestDebug | .source => some "suggest"
  | .goroot | .gopath | .goos | .goarch | .buildTags | .cgoEnabled | .goVersion => some "build"

/-- The name of a key in its record. -/
def name : Key → String
  | .version => "version"
  | .workspaceRoot => "workspace_root"
  | .debug => "debug"
  | .proposeBuiltins => "propose_builtins"
  | .suggestDebug => "debug"
  | .source => "source"
  | .goroot => "goroot"
  | .gopath => "gopath"
  | .goos => "goos"
  | .goarch => "goarch"
  | .buildTags => "build_tags"
  | .cgoEnabled => "cgo_enabled"
  | .goVersion => "go_version"

/-- The names that lead to a key. -/
def place (k : Key) : List String := k.group?.toList ++ [k.name]

/-- No two keys have one place. -/
theorem place_injective {k other : Key} (h : k.place = other.place) : k = other := by
  cases k <;> cases other <;> first | rfl | exact absurd h (by decide)

/-- The kind of a key's value. -/
abbrev kind : Key → Kind
  | .version => .word32
  | .workspaceRoot | .goroot => .path
  | .debug | .proposeBuiltins | .suggestDebug | .source | .cgoEnabled => .truth
  | .gopath => .paths
  | .goos | .goarch | .goVersion => .text
  | .buildTags => .texts

end Key

/-- The names of the records among the settings. -/
def groups : List String := ["suggest", "build"]

theorem Key.group_mem_groups {k : Key} {group : String} (h : k.group? = some group) :
    group ∈ groups := by
  cases k <;> cases h <;> decide

theorem Key.name_not_mem_groups {k : Key} (h : k.group? = none) : k.name ∉ groups := by
  cases k <;> cases h <;> decide

/-- The value of a key in settings.  Only an option can be without one. -/
def value? (s : Settings) : (k : Key) → Option k.kind.Value
  | .version => some s.version
  | .workspaceRoot => s.workspaceRoot
  | .debug => some s.debug
  | .proposeBuiltins => some s.suggest.proposeBuiltins
  | .suggestDebug => some s.suggest.debug
  | .source => some s.suggest.source
  | .goroot => s.build.goroot
  | .gopath => some s.build.gopath
  | .goos => s.build.goos
  | .goarch => s.build.goarch
  | .buildTags => some s.build.buildTags
  | .cgoEnabled => some s.build.cgoEnabled
  | .goVersion => s.build.goVersion

/-- Settings are the values of their keys. -/
theorem eq_of_value? {s t : Settings} (h : ∀ k : Key, s.value? k = t.value? k) : s = t := by
  obtain ⟨version, root, debug, suggest, build⟩ := s
  obtain ⟨builtins, suggestDebug, source⟩ := suggest
  obtain ⟨goroot, gopath, goos, goarch, tags, cgo, release⟩ := build
  obtain rfl := Option.some_inj.mp (h .version)
  obtain rfl := h .workspaceRoot
  obtain rfl := Option.some_inj.mp (h .debug)
  obtain rfl := Option.some_inj.mp (h .proposeBuiltins)
  obtain rfl := Option.some_inj.mp (h .suggestDebug)
  obtain rfl := Option.some_inj.mp (h .source)
  obtain rfl := h .goroot
  obtain rfl := Option.some_inj.mp (h .gopath)
  obtain rfl := h .goos
  obtain rfl := h .goarch
  obtain rfl := Option.some_inj.mp (h .buildTags)
  obtain rfl := Option.some_inj.mp (h .cgoEnabled)
  obtain rfl := h .goVersion
  rfl

/-- The settings with the given values, and with the defaults where there is none. -/
def ofValues (x : (k : Key) → Option k.kind.Value) : Settings where
  version := (x .version).getD 1
  workspaceRoot := x .workspaceRoot
  debug := (x .debug).getD false
  suggest := {
    proposeBuiltins := (x .proposeBuiltins).getD true
    debug := (x .suggestDebug).getD false
    source := (x .source).getD false }
  build := {
    goroot := x .goroot
    gopath := (x .gopath).getD []
    goos := x .goos
    goarch := x .goarch
    buildTags := (x .buildTags).getD []
    cgoEnabled := (x .cgoEnabled).getD true
    goVersion := x .goVersion }

theorem value?_ofValues (x : (k : Key) → Option k.kind.Value) (k : Key) :
    (ofValues x).value? k = (x k <|> ({} : Settings).value? k) := by
  cases k <;> simp only [ofValues, value?] <;> cases x _ <;> rfl

/-! ## 3. Keys in tables -/

section

variable {α : Type} (table? : α → Option (List (String × α)))

/-- The entries of a group: all entries, or those of the group's table. -/
def entriesBelow (group? : Option String) (entries : List (String × α)) : List (String × α) :=
  match group? with
  | none => entries
  | some group => ((entries.lookup group).bind table?).getD []

/-- The value at a key's place. -/
def Key.find? (k : Key) (entries : List (String × α)) : Option α :=
  (entriesBelow table? k.group? entries).lookup k.name

/-- Where there is something under the name of a group, it is a table. -/
def HasGroups (entries : List (String × α)) : Prop :=
  ∀ group ∈ groups, ∀ v, entries.lookup group = some v → (table? v).isSome = true

end

end Settings

/-- The entries of a table. -/
def Setting.table? : Setting → Option Layer
  | .table entries => some entries
  | _ => none

theorem Setting.exists_eq_table {v : Setting} (h : v.table?.isSome = true) :
    ∃ entries, v = .table entries := by
  cases v with
  | table entries => exact ⟨entries, rfl⟩
  | _ => cases h

namespace Settings

open Setting (table? withDefault within asBuild asSuggest asSettings)

variable {layer : Layer} {k : Key}

/-- What reading a key's value in a layer yields. -/
def Key.read (k : Key) (layer : Layer) : Setting.Typed (Option k.kind.Value) :=
  Setting.optional (entriesBelow table? k.group? layer) k.name k.kind.read

/-! ## 4. Settings from the values of keys -/

/-- A record is read from its table, and from an empty one where it has none. -/
theorem withDefault_of_group {α : Type} {group : String} {default : α}
    {read : Setting → Setting.Typed α} (hdefault : read (.table []) = .ok default)
    (htable : ∀ v, layer.lookup group = some v → (table? v).isSome = true) :
    withDefault layer group default read =
      within (.name group) (read (.table (entriesBelow table? (some group) layer))) := by
  rw [withDefault, Setting.optional, entriesBelow]
  cases hv : layer.lookup group with
  | none =>
    show Except.ok default = within _ (read (.table []))
    rw [hdefault]
    rfl
  | some v =>
    obtain ⟨entries, rfl⟩ := Setting.exists_eq_table (htable v hv)
    show (·.getD default) <$> within _ (some <$> read (.table entries)) =
      within _ (read (.table entries))
    cases read (.table entries) <;> rfl

theorem asBuild_eq (layer : Layer) :
    asBuild (.table (entriesBelow table? (some "build") layer)) = (do
      let buildTags ← (·.getD []) <$> Key.buildTags.read layer
      let cgoEnabled ← (·.getD true) <$> Key.cgoEnabled.read layer
      let goVersion ← Key.goVersion.read layer
      let goarch ← Key.goarch.read layer
      let goos ← Key.goos.read layer
      let gopath ← (·.getD []) <$> Key.gopath.read layer
      let goroot ← Key.goroot.read layer
      .ok { goroot, gopath, goos, goarch, buildTags, cgoEnabled, goVersion }) := rfl

theorem asSuggest_eq (layer : Layer) :
    asSuggest (.table (entriesBelow table? (some "suggest") layer)) = (do
      let debug ← (·.getD false) <$> Key.suggestDebug.read layer
      let proposeBuiltins ← (·.getD true) <$> Key.proposeBuiltins.read layer
      let source ← (·.getD false) <$> Key.source.read layer
      .ok { proposeBuiltins, debug, source }) := rfl

theorem asSettings_eq (h : HasGroups table? layer) :
    asSettings layer = (do
      let build ←
        within (.name "build") (asBuild (.table (entriesBelow table? (some "build") layer)))
      let debug ← (·.getD false) <$> Key.debug.read layer
      let suggest ←
        within (.name "suggest") (asSuggest (.table (entriesBelow table? (some "suggest") layer)))
      let version ← (·.getD 1) <$> Key.version.read layer
      let workspaceRoot ← Key.workspaceRoot.read layer
      .ok { version, workspaceRoot, debug, suggest, build }) := by
  have hbuild : asBuild (.table []) = .ok {} := rfl
  have hsuggest : asSuggest (.table []) = .ok {} := rfl
  rw [asSettings, withDefault_of_group hbuild (h "build" (by decide)),
    withDefault_of_group hsuggest (h "suggest" (by decide))]
  rfl

/-- **When the value of every key can be read, the settings are those with these values.** -/
theorem asSettings_of_reads (h : HasGroups table? layer) {x : (k : Key) → Option k.kind.Value}
    (hread : ∀ k : Key, k.read layer = .ok (x k)) : asSettings layer = .ok (ofValues x) := by
  rw [asSettings_eq h, asBuild_eq, asSuggest_eq]
  simp only [hread]
  rfl

/-- **When the value of a single key cannot be read, that is what is wrong with the settings.** -/
theorem asSettings_of_fault (h : HasGroups table? layer) {e : SettingError}
    (hothers : ∀ other : Key, other ≠ k → ∃ x, other.read layer = .ok x)
    (hfault : k.read layer = .error e) :
    asSettings layer =
      .error { e with place := k.group?.toList.map Setting.Step.name ++ e.place } := by
  choose! x hread using hothers
  rw [asSettings_eq h, asBuild_eq, asSuggest_eq]
  cases k <;>
  · simp only [hfault, hread, ne_eq, reduceCtorEq, not_false_eq_true]
    rfl

end Settings

end GoResolver
