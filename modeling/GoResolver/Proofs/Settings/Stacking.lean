import GoResolver.Proofs.Settings.Keys
import GoResolver.Proofs.Settings.Library

/-!
# Keys in layers over each other

Laying one layer over another works on whole tables, name by name, which is all that is assumed of
it here (`SettingsLibrary.Overlays`).  What it does to a key is simple all the same: the value of
the upper layer counts, and that of the lower one where the upper one has none (`find?_stack`).
Other entries of the same table do not matter, nor does the order of entries.

It takes layers of the right shape (`Shaped`).  No name occurs twice in them, for nothing is assumed
of other layers; and there is a table where a record is to be, and none where a key is, for a table
does not replace the table below it.

Over the defaults and under the environment, settings are then decided key by key
(`exists_ofLayers_eq_ok`), and a single key that cannot be read is what loading them fails with
(`ofLayers_of_fault`).
-/

namespace GoResolver.Settings

open Setting (table? within)

variable {lib : SettingsLibrary} {lower upper layer : Layer}

/-- A layer with tables for the records, and only for them, and without two entries of one name. -/
structure Shaped (layer : Layer) : Prop where
  names : (layer.map Prod.fst).Nodup
  groups : ∀ group ∈ groups, ∀ v, layer.lookup group = some v →
    ∃ entries, v = .table entries ∧ (entries.map Prod.fst).Nodup
  leaves : ∀ k : Key, ∀ entries, k.find? table? layer ≠ some (.table entries)

theorem Key.find?_nil (k : Key) : k.find? table? [] = none := by
  cases k <;> rfl

theorem shaped_nil : Shaped [] where
  names := List.nodup_nil
  groups := nofun
  leaves k entries := by
    rw [Key.find?_nil]
    exact nofun

theorem Shaped.hasGroups (h : Shaped layer) : HasGroups table? layer := by
  intro group hgroup v hv
  obtain ⟨entries, rfl, -⟩ := h.groups group hgroup v hv
  rfl

/-! ## 1. Reading -/

theorem Key.read_eq (k : Key) (layer : Layer) :
    k.read layer = match k.find? table? layer with
      | none => .ok none
      | some v => within (.name k.name) (some <$> k.kind.read v) := rfl

theorem Key.read_nil (k : Key) : k.read [] = .ok none := by
  rw [read_eq, find?_nil]

/-- A value that can be read is one. -/
theorem Key.exists_eq_some_of_read {k : Key} {v : Setting} {x : Option k.kind.Value}
    (hv : k.find? table? layer = some v) (hx : k.read layer = .ok x) : ∃ a, x = some a := by
  rw [read_eq, hv] at hx
  dsimp only at hx
  cases hread : k.kind.read v with
  | error e =>
    rw [hread] at hx
    cases hx
  | ok a =>
    rw [hread] at hx
    exact ⟨a, (Except.ok.inj hx).symm⟩

/-- The place of a key leads to its value. -/
theorem at?_place (k : Key) (layer : Layer) :
    (Setting.table layer).at? (k.place.map .name) = k.find? table? layer := by
  have hlookup : ∀ (entries : Layer) (name : String),
      (Setting.table entries).at? [.name name] = entries.lookup name := by
    intro entries name
    rw [Setting.at?]
    cases entries.lookup name <;> rfl
  cases hgroup : k.group? with
  | none =>
    simp only [Key.place, Key.find?, hgroup, entriesBelow]
    exact hlookup layer k.name
  | some group =>
    simp only [Key.place, Key.find?, hgroup, entriesBelow, Option.toList_some,
      List.singleton_append, List.map_cons, List.map_nil]
    rw [Setting.at?]
    cases layer.lookup group with
    | none => rfl
    | some v =>
      cases v with
      | table entries => exact hlookup entries k.name
      | _ => rfl

/-! ## 2. Laying over -/

section

variable (hlib : lib.Overlays)
include hlib

theorem lookup_stack_of_not_table {entries below : Layer} (hbelow : (below.map Prod.fst).Nodup)
    (hnames : (entries.map Prod.fst).Nodup) {name : String}
    (hleaf : ∀ inner, entries.lookup name ≠ some (.table inner)) :
    (lib.stack below entries).lookup name = (entries.lookup name <|> below.lookup name) := by
  rw [hlib.lookup below entries hbelow hnames]
  cases hv : entries.lookup name with
  | none => rfl
  | some v =>
    have hv : ∀ inner, v ≠ .table inner := by
      rintro inner rfl
      exact hleaf inner hv
    rw [Option.map_some, SettingsLibrary.overlaid_of_not_table hv]

variable (hupper : Shaped upper) (hlower : Shaped lower)
include hupper hlower

/-- The table of a record is that of the upper layer over that of the lower one. -/
theorem lookup_group_stack {group : String} (hgroup : group ∈ groups) {entries : Layer}
    (hentries : upper.lookup group = some (.table entries)) :
    (lower.lookup group = none ∧ (lib.stack lower upper).lookup group = some (.table entries)) ∨
    ∃ below, lower.lookup group = some (.table below) ∧ (below.map Prod.fst).Nodup ∧
      (lib.stack lower upper).lookup group = some (.table (lib.stack below entries)) := by
  rw [hlib.lookup lower upper hlower.names hupper.names, hentries]
  cases hl : lower.lookup group with
  | none => exact .inl ⟨rfl, rfl⟩
  | some w =>
    obtain ⟨below, rfl, hbelow⟩ := hlower.groups group hgroup w hl
    exact .inr ⟨below, rfl, hbelow, rfl⟩

/-- **The value of a key is that of the upper layer, or else that of the lower one.** -/
theorem find?_stack (k : Key) :
    k.find? table? (lib.stack lower upper) = (k.find? table? upper <|> k.find? table? lower) := by
  have hleaf := hupper.leaves k
  cases hgroup : k.group? with
  | none =>
    simp only [Key.find?, hgroup, entriesBelow] at hleaf ⊢
    exact lookup_stack_of_not_table hlib hlower.names hupper.names hleaf
  | some group =>
    have hmem := Key.group_mem_groups hgroup
    simp only [Key.find?, hgroup, entriesBelow] at hleaf ⊢
    cases hu : upper.lookup group with
    | none =>
      rw [hlib.lookup lower upper hlower.names hupper.names, hu]
      rfl
    | some v =>
      obtain ⟨entries, rfl, hnames⟩ := hupper.groups group hmem v hu
      rw [hu] at hleaf
      rcases lookup_group_stack hlib hupper hlower hmem hu with
        ⟨hl, hstack⟩ | ⟨below, hl, hbelow, hstack⟩
      · rw [hl, hstack]
        show entries.lookup k.name = (entries.lookup k.name <|> none)
        cases entries.lookup k.name <;> rfl
      · rw [hl, hstack]
        exact lookup_stack_of_not_table hlib hbelow hnames hleaf

/-- Layers of the right shape keep it when one is laid over the other. -/
theorem Shaped.stack : Shaped (lib.stack lower upper) where
  names := hlib.names lower upper hlower.names hupper.names
  groups group hgroup v hv := by
    cases hu : upper.lookup group with
    | none =>
      rw [hlib.lookup lower upper hlower.names hupper.names, hu] at hv
      exact hlower.groups group hgroup v hv
    | some u =>
      obtain ⟨entries, rfl, hnames⟩ := hupper.groups group hgroup u hu
      rcases lookup_group_stack hlib hupper hlower hgroup hu with
        ⟨-, hstack⟩ | ⟨below, -, hbelow, hstack⟩
      · exact ⟨entries, Option.some_inj.mp (hv.symm.trans hstack), hnames⟩
      · exact ⟨_, Option.some_inj.mp (hv.symm.trans hstack),
          hlib.names below entries hbelow hnames⟩
  leaves k entries := by
    rw [find?_stack hlib hupper hlower]
    cases hu : k.find? table? upper with
    | none => exact hlower.leaves k entries
    | some v =>
      show some v ≠ some (.table entries)
      rw [← hu]
      exact hupper.leaves k entries

/-- So a key that the upper layer has is read from there. -/
theorem read_stack_of_present {k : Key} {v : Setting} (hv : k.find? table? upper = some v) :
    k.read (lib.stack lower upper) = k.read upper := by
  rw [Key.read_eq, Key.read_eq, find?_stack hlib hupper hlower, hv]
  rfl

/-- A key is read from the upper layer, or else from the lower one. -/
theorem read_stack {k : Key} {x y : Option k.kind.Value} (hx : k.read upper = .ok x)
    (hy : k.read lower = .ok y) : k.read (lib.stack lower upper) = .ok (x <|> y) := by
  cases hu : k.find? table? upper with
  | none =>
    rw [Key.read_eq, hu] at hx
    rw [← Except.ok.inj hx, Key.read_eq, find?_stack hlib hupper hlower, hu]
    exact hy
  | some v =>
    obtain ⟨a, rfl⟩ := Key.exists_eq_some_of_read hu hx
    rw [read_stack_of_present hlib hupper hlower hu, hx]
    rfl

end

/-! ## 3. The defaults -/

theorem shaped_defaultLayer : Shaped defaultLayer where
  names := by decide
  groups group hgroup v hv := by
    rcases List.mem_pair.mp hgroup with rfl | rfl <;>
    · obtain rfl := Option.some_inj.mp hv
      exact ⟨_, rfl, by decide⟩
  leaves k entries := by
    cases k <;> exact nofun

/-- **The defaults are the values of the default settings.** -/
theorem read_defaultLayer (k : Key) : k.read defaultLayer = .ok (({} : Settings).value? k) := by
  cases k <;> rfl

/-! ## 4. All layers -/

section

variable (hlib : lib.Overlays) {environment : Layer} (hlayer : Shaped layer)
  (henvironment : Shaped environment) {x : (k : Key) → Option k.kind.Value}
include hlib hlayer

/-- The layers below the environment. -/
theorem shaped_below : Shaped (lib.stack defaultLayer layer) :=
  hlayer.stack hlib shaped_defaultLayer

/-- Below the environment, a key has its value in the file or else its default. -/
theorem read_below (hx : ∀ k : Key, k.read layer = .ok (x k)) (k : Key) :
    k.read (lib.stack defaultLayer layer) = .ok (x k <|> ({} : Settings).value? k) :=
  read_stack hlib hlayer shaped_defaultLayer (hx k) (read_defaultLayer k)

include henvironment

/-- **When each key can be read from its layer, each has its value in the environment, or else that
in the file, or else its default.** -/
theorem exists_ofLayers_eq_ok {y : (k : Key) → Option k.kind.Value}
    (hx : ∀ k : Key, k.read layer = .ok (x k)) (hy : ∀ k : Key, k.read environment = .ok (y k))
    (file : Option Path) :
    ∃ s, lib.ofLayers file layer environment = .ok s ∧
      ∀ k : Key, s.value? k = (y k <|> x k <|> ({} : Settings).value? k) := by
  have hbelow := shaped_below hlib hlayer
  have hgroups := (henvironment.stack hlib hbelow).hasGroups
  have hall : ∀ k : Key, k.read (lib.stack (lib.stack defaultLayer layer) environment) =
      .ok (y k <|> x k <|> ({} : Settings).value? k) := fun k =>
    read_stack hlib henvironment hbelow (hy k) (read_below hlib hlayer hx k)
  refine ⟨_, by rw [SettingsLibrary.ofLayers, asSettings_of_reads hgroups hall], fun k => ?_⟩
  rw [value?_ofValues]
  cases y k with
  | some a => rfl
  | none =>
    cases x k with
    | some a => rfl
    | none => cases ({} : Settings).value? k <;> rfl

/-- **When a single key cannot be read, and has its value in the environment, this is to blame.** -/
theorem ofLayers_of_fault {k : Key} {v : Setting} {fault : SettingFault}
    (hx : ∀ k : Key, k.read layer = .ok (x k)) (hvalue : k.find? table? environment = some v)
    (hothers : ∀ other : Key, other ≠ k → other.read environment = .ok none)
    (hfault : k.kind.read v = .error ⟨[], fault⟩) (file : Option Path) :
    lib.ofLayers file layer environment =
      .error (.invalid .environment ⟨k.place.map .name, fault⟩) := by
  have hbelow := shaped_below hlib hlayer
  have hread : k.read (lib.stack (lib.stack defaultLayer layer) environment) =
      .error ⟨[.name k.name], fault⟩ := by
    rw [read_stack_of_present hlib henvironment hbelow hvalue, Key.read_eq, hvalue]
    dsimp only
    rw [hfault]
    rfl
  have hplace : k.group?.toList.map Setting.Step.name ++ [.name k.name] =
      k.place.map Setting.Step.name := by
    rw [Key.place, List.map_append, List.map_singleton]
  have hsource : SettingsSource.ofPlace file layer environment (k.place.map .name) =
      .environment := by
    refine if_pos ?_
    rw [at?_place, hvalue]
    rfl
  rw [SettingsLibrary.ofLayers, asSettings_of_fault (henvironment.stack hlib hbelow).hasGroups
    (fun other hother => ⟨_, read_stack hlib henvironment hbelow (hothers other hother)
      (read_below hlib hlayer hx other)⟩) hread]
  dsimp only
  rw [hplace, hsource]

end

end GoResolver.Settings
