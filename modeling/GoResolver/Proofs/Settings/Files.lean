import GoResolver.Proofs.Settings.Stacking
import GoResolver.Proofs.Toml.Tables

/-!
# Settings files key by key

A settings file is well typed when each key that it has a value for has one of its kind.  Besides,
a record must be written as a table, and no table may use a name that is reserved; names that are no
keys may have any value.

Where no table of the file has two entries of one name, the layer of a well-typed file has the right
shape to be laid over the defaults, and each key is read from it as the value that is written there
(`exists_layer_of_wellTyped`).
-/

namespace GoResolver

/-! ## 1. Values in files -/

/-- The text of a string. -/
def Toml.Value.text? : Toml.Value → Option String
  | .string s => some s
  | _ => none

/-- The entries of a table. -/
def Toml.Value.table? : Toml.Value → Option (List (String × Toml.Value))
  | .table entries => some entries
  | _ => none

theorem Toml.Value.exists_eq_table {v : Toml.Value} (h : v.table?.isSome = true) :
    ∃ entries, v = .table entries := by
  cases v with
  | table entries => exact ⟨entries, rfl⟩
  | _ => cases h

/-- The value of a kind that is written in a file. -/
def Kind.ofToml? : (kind : Kind) → Toml.Value → Option kind.Value
  | .word32, .integer n => if 0 ≤ n ∧ n < Text.word32Limit then some n.toNat else none
  | .truth, .boolean b => some b
  | .text, v => v.text?
  | .path, v => v.text?.map Path.mk
  | .texts, .array items => items.mapM Toml.Value.text?
  | .paths, .array items => (items.mapM Toml.Value.text?).map (List.map Path.mk)
  | _, _ => none

theorem Toml.Value.eq_string_of_text? {v : Toml.Value} {s : String} (h : v.text? = some s) :
    v = .string s := by
  cases v <;> cases h
  rfl

theorem Toml.Value.eq_map_string_of_mapM {items : List Toml.Value} {texts : List String}
    (h : items.mapM text? = some texts) : items = texts.map .string := by
  induction items generalizing texts with
  | nil =>
    rw [List.mapM_nil] at h
    rw [← Option.some_inj.mp h, List.map_nil]
  | cons v items ih =>
    simp only [List.mapM_cons, Option.bind_eq_bind, Option.bind_eq_some_iff] at h
    obtain ⟨s, hs, rest, hrest, h⟩ := h
    rw [← Option.some_inj.mp h, List.map_cons, eq_string_of_text? hs, ih hrest]

/-- What is written for a value is read as the value. -/
theorem Kind.isReadAs_of_ofToml? {kind : Kind} {v : Toml.Value} {x : kind.Value}
    (h : kind.ofToml? v = some x) : Setting.IsReadAs kind.read v x := by
  cases kind with
  | word32 =>
    cases v with
    | integer n =>
      rw [ofToml?] at h
      split at h
      · next hrange =>
        obtain rfl := Option.some_inj.mp h
        have hn := Setting.isReadAs_word32 (n := n.toNat) (by omega)
        rwa [Int.toNat_of_nonneg hrange.1] at hn
      · cases h
    | _ => cases h
  | truth =>
    cases v with
    | boolean b => exact Option.some_inj.mp h ▸ Setting.isReadAs_boolean b
    | _ => cases h
  | text => exact Toml.Value.eq_string_of_text? h ▸ Setting.isReadAs_text x
  | path =>
    obtain ⟨s, hs, rfl⟩ := Option.map_eq_some_iff.mp h
    exact Toml.Value.eq_string_of_text? hs ▸ Setting.isReadAs_path ⟨s⟩
  | texts =>
    cases v with
    | array items =>
      rw [Toml.Value.eq_map_string_of_mapM h]
      have hlist : Setting.IsReadAs (Setting.asList Setting.asText)
          (.array ((x.map id).map .string)) x := Setting.isReadAs_list (fun _ => rfl) x
      rwa [List.map_id] at hlist
    | _ => cases h
  | paths =>
    cases v with
    | array items =>
      obtain ⟨texts, htexts, rfl⟩ := Option.map_eq_some_iff.mp h
      rw [Toml.Value.eq_map_string_of_mapM htexts]
      have hlist : Setting.IsReadAs (Setting.asList Setting.asPath)
          (.array (((texts.map Path.mk).map Path.text).map .string)) (texts.map Path.mk) :=
        Setting.isReadAs_list (fun _ => rfl) (texts.map Path.mk)
      have htext : (texts.map Path.mk).map Path.text = texts := by
        rw [List.map_map]
        exact List.map_id texts
      rwa [htext] at hlist
    | _ => cases h

/-! ## 2. Reserved names -/

/-- Names that no table of a file uses in vain. -/
def Unreserved (names : List String) : Prop :=
  Setting.originName ∉ names ∧ Setting.contentName ∉ names

namespace Setting

variable {entries : List (String × Toml.Value)} {layer : Layer}

/-- A table without reserved names is a table. -/
theorem ofToml?_table_of_unreserved (hlayer : ofTomlEntries? entries = some layer)
    (h : Unreserved (entries.map Prod.fst)) : ofToml? (.table entries) = some (.table layer) := by
  rw [← map_fst_of_ofTomlEntries? hlayer] at h
  rw [ofToml?, hlayer, Option.bind_some]
  exact ofEntries?_of_lookup (lookup_eq_none_of_not_mem h.1) (lookup_eq_none_of_not_mem h.2)

/-- The items of an array are settings when each of them is one. -/
theorem isSome_ofTomlItems? {items : List Toml.Value}
    (h : ∀ v ∈ items, (ofToml? v).isSome = true) : (ofTomlItems? items).isSome = true := by
  induction items with
  | nil => rfl
  | cons v items ih =>
    obtain ⟨hfirst, hrest⟩ := List.forall_mem_cons.mp h
    obtain ⟨x, hx⟩ := Option.isSome_iff_exists.mp hfirst
    obtain ⟨xs, hxs⟩ := Option.isSome_iff_exists.mp (ih hrest)
    rw [ofTomlItems?, hx, hxs]
    rfl

/-- A value without reserved names is a setting. -/
theorem isSome_ofToml?_of_unreserved {v : Toml.Value} (h : v.EveryTable Unreserved) :
    (ofToml? v).isSome = true := by
  induction h with
  | array _ ih =>
    rw [ofToml?, Option.isSome_map]
    exact isSome_ofTomlItems? ih
  | table names _ ih =>
    obtain ⟨layer, hlayer⟩ := exists_ofTomlEntries?_eq ih
    rw [ofToml?_table_of_unreserved hlayer names]
    rfl
  | _ => rfl

end Setting

/-! ## 3. Well-typed files -/

namespace Settings

open Toml (IsTable)

variable {document : List (String × Toml.Value)}

/-- The value of a key that is written in a file. -/
def Key.inDocument? (k : Key) (document : List (String × Toml.Value)) : Option k.kind.Value :=
  (k.find? Toml.Value.table? document).bind k.kind.ofToml?

/-- A file in which the records are tables, each key has a value of its kind if it has one, and no
table uses a reserved name. -/
structure WellTyped (document : List (String × Toml.Value)) : Prop where
  groups : HasGroups Toml.Value.table? document
  typed : ∀ k : Key, ∀ v, k.find? Toml.Value.table? document = some v →
    (k.kind.ofToml? v).isSome = true
  unreserved : ∀ e ∈ document, e.2.EveryTable Unreserved

section

variable (h : WellTyped document) {layer : Layer}
  (hlayer : Setting.ofTomlEntries? document = some layer)
include h hlayer

/-- The record of a file is the record of its layer. -/
theorem WellTyped.lookup_group {group : String} (hgroup : group ∈ Settings.groups) :
    (document.lookup group = none ∧ layer.lookup group = none) ∨
    ∃ entries inner, document.lookup group = some (.table entries) ∧
      Setting.ofTomlEntries? entries = some inner ∧
      layer.lookup group = some (.table inner) := by
  have hlookup := Setting.lookup_of_ofTomlEntries? hlayer group
  cases hv : document.lookup group with
  | none =>
    rw [hv] at hlookup
    exact .inl ⟨rfl, hlookup⟩
  | some v =>
    obtain ⟨entries, rfl⟩ := Toml.Value.exists_eq_table (h.groups group hgroup v hv)
    cases h.unreserved _ (mem_of_lookup_eq_some hv) with
    | table names each =>
      obtain ⟨inner, hinner⟩ := Setting.exists_ofTomlEntries?_eq fun e he =>
        Setting.isSome_ofToml?_of_unreserved (each e he)
      rw [hv, Option.bind_some, Setting.ofToml?_table_of_unreserved hinner names] at hlookup
      exact .inr ⟨entries, inner, rfl, hinner, hlookup⟩

theorem WellTyped.find?_layer (k : Key) :
    k.find? Setting.table? layer =
      (k.find? Toml.Value.table? document).bind Setting.ofToml? := by
  cases hgroup : k.group? with
  | none =>
    simp only [Key.find?, hgroup, entriesBelow]
    exact Setting.lookup_of_ofTomlEntries? hlayer k.name
  | some group =>
    simp only [Key.find?, hgroup, entriesBelow]
    rcases h.lookup_group hlayer (Key.group_mem_groups hgroup) with
      ⟨hnone, hnone'⟩ | ⟨entries, inner, hsome, hinner, hsome'⟩
    · rw [hnone, hnone']
      rfl
    · rw [hsome, hsome']
      exact Setting.lookup_of_ofTomlEntries? hinner k.name

end

/-- What is written for a key is read as the key's value. -/
theorem WellTyped.isReadAs (h : WellTyped document) {k : Key} {v : Toml.Value}
    (hv : k.find? Toml.Value.table? document = some v) :
    ∃ x, k.inDocument? document = some x ∧ Setting.IsReadAs k.kind.read v x := by
  obtain ⟨x, hx⟩ := Option.isSome_iff_exists.mp (h.typed k v hv)
  exact ⟨x, by rw [Key.inDocument?, hv, Option.bind_some, hx], Kind.isReadAs_of_ofToml? hx⟩

/-- **The layer of a well-typed file has the right shape, and each key is read from it as it is
written in the file.** -/
theorem exists_layer_of_wellTyped (h : WellTyped document)
    (hproper : IsTable Toml.Value.IsProper document) :
    ∃ layer, Setting.ofTomlEntries? document = some layer ∧ Shaped layer ∧
      ∀ k : Key, k.read layer = .ok (k.inDocument? document) := by
  obtain ⟨layer, hlayer⟩ := Setting.exists_ofTomlEntries?_eq fun e he =>
    Setting.isSome_ofToml?_of_unreserved (h.unreserved e he)
  refine ⟨layer, hlayer, ⟨?_, ?_, ?_⟩, ?_⟩
  · rw [Setting.map_fst_of_ofTomlEntries? hlayer]
    exact hproper.names
  · intro group hgroup v hv
    rcases h.lookup_group hlayer hgroup with ⟨-, hnone⟩ | ⟨entries, inner, hentries, hinner, hsome⟩
    · rw [hnone] at hv
      cases hv
    · rw [hsome] at hv
      have hnames := (hproper.of_lookup hentries).names_table
      rw [← Setting.map_fst_of_ofTomlEntries? hinner] at hnames
      exact ⟨inner, (Option.some_inj.mp hv).symm, hnames⟩
  · intro k entries hfind
    rw [h.find?_layer hlayer, Option.bind_eq_some_iff] at hfind
    obtain ⟨v, hv, hsetting⟩ := hfind
    obtain ⟨x, -, setting, hsetting', htable, -⟩ := h.isReadAs hv
    rw [hsetting] at hsetting'
    exact htable entries (Option.some_inj.mp hsetting').symm
  · intro k
    rw [Key.read_eq, h.find?_layer hlayer]
    cases hv : k.find? Toml.Value.table? document with
    | none =>
      rw [Key.inDocument?, hv]
      rfl
    | some v =>
      obtain ⟨x, hx, setting, hsetting, -, hread⟩ := h.isReadAs hv
      rw [Option.bind_some, hsetting, hx]
      dsimp only
      rw [hread]
      rfl

/-! ## 4. Files of nothing but keys -/

/-- No value of a kind has tables in it. -/
theorem Kind.everyTable_of_ofToml? {kind : Kind} {v : Toml.Value} (P : List String → Prop)
    (h : (kind.ofToml? v).isSome = true) : v.EveryTable P := by
  have hitems : ∀ items : List Toml.Value, (items.mapM Toml.Value.text?).isSome = true →
      (Toml.Value.array items).EveryTable P := by
    intro items hitems
    obtain ⟨texts, htexts⟩ := Option.isSome_iff_exists.mp hitems
    rw [Toml.Value.eq_map_string_of_mapM htexts]
    refine .array fun v hv => ?_
    obtain ⟨s, -, rfl⟩ := List.mem_map.mp hv
    exact .string s
  cases v with
  | string s => exact .string s
  | integer n => exact .integer n
  | float x => exact .float x
  | boolean b => exact .boolean b
  | moment => exact .moment
  | array items =>
    cases kind with
    | texts => exact hitems items h
    | paths => exact hitems items (Option.isSome_map.symm.trans h)
    | _ => cases h
  | table entries => cases kind <;> cases h

/-- The entry of a key of a group, with a value of the key's kind. -/
def IsKey (group? : Option String) (e : String × Toml.Value) : Prop :=
  ∃ k : Key, k.group? = group? ∧ k.name = e.1 ∧ (k.kind.ofToml? e.2).isSome = true

/-- The entry of a group, with keys of the group in its table. -/
def IsGroup (e : String × Toml.Value) : Prop :=
  e.1 ∈ groups ∧ ∃ entries, e.2 = .table entries ∧ ∀ inner ∈ entries, IsKey (some e.1) inner

theorem typed_of_isKey {k : Key} {v : Toml.Value} (h : IsKey k.group? (k.name, v)) :
    (k.kind.ofToml? v).isSome = true := by
  obtain ⟨other, hgroup, hname, htyped⟩ := h
  obtain rfl : other = k := Key.place_injective (by rw [Key.place, Key.place, hgroup, hname])
  exact htyped

/-- **A file with nothing but keys, and values of their kinds, is well typed.** -/
theorem wellTyped_of_keys (h : ∀ e ∈ document, IsKey none e ∨ IsGroup e) : WellTyped document := by
  -- under the name of a group there is a group
  have hgroup : ∀ group ∈ groups, ∀ v, document.lookup group = some v → IsGroup (group, v) := by
    intro group hmem v hv
    refine (h _ (mem_of_lookup_eq_some hv)).resolve_left ?_
    rintro ⟨k, hnone, hname, -⟩
    have hname : k.name = group := hname
    exact Key.name_not_mem_groups hnone (hname ▸ hmem)
  refine ⟨?_, ?_, ?_⟩
  · intro group hmem v hv
    obtain ⟨-, entries, hentries, -⟩ := hgroup group hmem v hv
    obtain rfl : v = .table entries := hentries
    rfl
  · intro k v hv
    refine typed_of_isKey ?_
    cases hk : k.group? with
    | none =>
      simp only [Key.find?, hk, entriesBelow] at hv
      refine (h _ (mem_of_lookup_eq_some hv)).resolve_right ?_
      exact fun hgroup => Key.name_not_mem_groups hk hgroup.1
    | some group =>
      simp only [Key.find?, hk, entriesBelow] at hv
      cases hfound : document.lookup group with
      | none =>
        rw [hfound] at hv
        cases hv
      | some w =>
        obtain ⟨-, entries, hentries, hkeys⟩ := hgroup group (Key.group_mem_groups hk) w hfound
        obtain rfl : w = .table entries := hentries
        rw [hfound] at hv
        exact hkeys _ (mem_of_lookup_eq_some hv)
  · intro e he
    have hkeys : ∀ group? e, IsKey group? e → e.2.EveryTable Unreserved := by
      rintro group? e ⟨k, -, -, htyped⟩
      exact Kind.everyTable_of_ofToml? Unreserved htyped
    rcases h e he with hkey | ⟨-, entries, hentries, hinner⟩
    · exact hkeys _ e hkey
    · rw [hentries]
      refine .table ⟨?_, ?_⟩ fun inner hmem => hkeys _ inner (hinner inner hmem) <;>
      · rw [List.mem_map]
        rintro ⟨inner, hmem, hreserved⟩
        obtain ⟨k, -, hname, -⟩ := hinner inner hmem
        rw [← hname] at hreserved
        cases k <;> exact absurd hreserved (by decide)

end Settings

/-! ## 5. Finding the file -/

namespace SettingsLibrary

open Settings (Key Shaped WellTyped exists_layer_of_wellTyped)

variable (lib : SettingsLibrary)

/-- The document in the settings file at a path.  Where there is no file, it is as if it were empty.
-/
def document? (h : Host) (path : Path) : Option (List (String × Toml.Value)) :=
  match h.findSettings? path with
  | none => some []
  | some file =>
    match h.files.readText file with
    | .error _ => none
    | .ok text => lib.parse? text

variable {lib} {h : Host} {path : Path} {document : List (String × Toml.Value)}

theorem ReadsTables.isTable (hlib : lib.ReadsTables)
    (hdocument : lib.document? h path = some document) :
    Toml.IsTable Toml.Value.IsProper document := by
  rw [document?] at hdocument
  split at hdocument
  · exact Option.some_inj.mp hdocument ▸ Toml.isTable_nil
  · split at hdocument
    · cases hdocument
    · exact hlib _ _ hdocument

/-- **Settings are loaded from a layer in which each key is read as it is written in the file.** -/
theorem exists_layer_of_document? (hdocument : lib.document? h path = some document)
    (hproper : Toml.IsTable Toml.Value.IsProper document) (htyped : WellTyped document) :
    ∃ file layer, Shaped layer ∧ (∀ k : Key, k.read layer = .ok (k.inDocument? document)) ∧
      lib.loadFrom h path = lib.ofLayers file layer (lib.layer h.environment) := by
  obtain ⟨layer, hlayer, hshaped, hread⟩ := exists_layer_of_wellTyped htyped hproper
  rw [document?] at hdocument
  split at hdocument
  · next hfile =>
    obtain rfl := Option.some_inj.mp hdocument
    obtain rfl : [] = layer := Option.some_inj.mp hlayer
    exact ⟨none, [], hshaped, hread, by rw [loadFrom, hfile]⟩
  · next file hfile =>
    split at hdocument
    · cases hdocument
    · next text htext =>
      have hfileLayer : lib.fileLayer h.files file = .ok layer := by
        rw [fileLayer, htext]
        dsimp only
        rw [hdocument, Option.bind_some, hlayer]
      refine ⟨some file, layer, hshaped, hread, ?_⟩
      rw [loadFrom, hfile]
      dsimp only
      rw [hfileLayer]
      rfl

end SettingsLibrary

end GoResolver
