import GoResolver.Proofs.Settings.Files
import GoResolver.Settings.Save

/-!
# Settings as a document

Settings are saved as a document with a field for each key that has a value: those of the records
are in tables, and the others are fields of the document itself (`draft_eq`).  Each field is written
under the key's own name, as a value of the key's kind (`Kind.datum`).

So the document is well typed, and each key has in it the value that it has in the settings
(`wellTyped_draft`, `inDocument?_draft`).  The only condition is that the version is a number of 32
bits, which is all that a version can be.
-/

namespace GoResolver

open Toml (Datum Field entriesOf present)

/-! ## 1. Values -/

/-- How a value of a kind is written. -/
def Kind.datum : (kind : Kind) → kind.Value → Datum
  | .word32, n => .natural n
  | .truth, b => .truth b
  | .text, s => .text s
  | .path, p => .text p.text
  | .texts, items => .texts items
  | .paths, items => .texts (items.map Path.text)

/-- Whether a value is one of its kind: a number has 32 bits. -/
def Kind.Fits : (kind : Kind) → kind.Value → Prop
  | .word32, n => n < Text.word32Limit
  | _, _ => True

theorem Kind.Fits.datum {kind : Kind} {x : kind.Value} (h : kind.Fits x) :
    (kind.datum x).Fits := by
  cases kind with
  | word32 => exact Nat.lt_trans h (by decide)
  | _ => trivial

theorem Toml.Value.mapM_text?_strings (items : List String) :
    (items.map Toml.Value.string).mapM Toml.Value.text? = some items := by
  rw [List.mapM_map]
  -- each text is read as itself
  show items.mapM (fun s => pure (id s)) = some items
  rw [List.mapM_pure, List.map_id]
  rfl

theorem Kind.ofToml?_natCast {n : Nat} (hn : n < Text.word32Limit) :
    Kind.word32.ofToml? (.integer n) = some n := by
  have hrange : 0 ≤ (n : Int) ∧ (n : Int) < Text.word32Limit := by omega
  rw [ofToml?, if_pos hrange, Int.toNat_natCast]

/-- **What is written for a value of a kind is the value.** -/
theorem Kind.Fits.ofToml?_datum {kind : Kind} {x : kind.Value} (h : kind.Fits x) :
    kind.ofToml? (kind.datum x).value = some x := by
  cases kind with
  | word32 => exact ofToml?_natCast h
  | truth => rfl
  | text => rfl
  | path => rfl
  | texts => exact Toml.Value.mapM_text?_strings x
  | paths =>
    show (((x.map Path.text).map Toml.Value.string).mapM Toml.Value.text?).map
      (List.map Path.mk) = some x
    rw [Toml.Value.mapM_text?_strings, Option.map_some, List.map_map]
    exact congrArg some (List.map_id x)

namespace Settings

/-! ## 2. Fields -/

/-- All keys. -/
def Key.all : List Key :=
  [.version, .workspaceRoot, .debug, .proposeBuiltins, .suggestDebug, .source, .goroot, .gopath,
    .goos, .goarch, .buildTags, .cgoEnabled, .goVersion]

/-- The keys of a group. -/
def Key.allIn (group? : Option String) : List Key := Key.all.filter fun k => k.group? = group?

/-- What is written for a key, if the settings have a value for it. -/
def Key.field (s : Settings) (k : Key) : String × Option Datum :=
  (k.name, (s.value? k).map k.kind.datum)

/-- What is written for the keys of a group. -/
def fieldsOf (s : Settings) (group? : Option String) : List (String × Option Datum) :=
  (Key.allIn group?).map (Key.field s)

variable {s : Settings}

/-- **Settings are written group by group.** -/
theorem draft_eq (s : Settings) : s.draft =
    ⟨present (s.fieldsOf none), groups.map fun g => (g, present (s.fieldsOf (some g)))⟩ := rfl

theorem Key.mem_allIn (k : Key) : k ∈ Key.allIn k.group? := by
  cases k <;> decide

theorem Key.of_mem_allIn {k : Key} {group? : Option String} (h : k ∈ Key.allIn group?) :
    k.group? = group? := by
  simpa using (List.mem_filter.mp h).2

theorem map_fst_fieldsOf (s : Settings) (group? : Option String) :
    (s.fieldsOf group?).map Prod.fst = (Key.allIn group?).map Key.name := by
  rw [fieldsOf, List.map_map]
  rfl

/-- No two keys of a group have one name. -/
theorem nodup_fieldsOf (s : Settings) (group? : Option String) :
    ((s.fieldsOf group?).map Prod.fst).Nodup := by
  rw [map_fst_fieldsOf]
  have hall : Key.all.Nodup := by decide
  refine List.Nodup.map_on (fun k hk other hother hname => ?_) (hall.filter _)
  refine Key.place_injective ?_
  rw [Key.place, Key.place, Key.of_mem_allIn hk, Key.of_mem_allIn hother, hname]

theorem lookup_fieldsOf (s : Settings) (k : Key) :
    (s.fieldsOf k.group?).lookup k.name = some ((s.value? k).map k.kind.datum) := by
  rw [lookup_eq_some_iff_mem (nodup_fieldsOf s k.group?)]
  exact List.mem_map_of_mem k.mem_allIn

/-- **Among the entries that are written for a group, a key has its own value.** -/
theorem lookup_entriesOf_fieldsOf (s : Settings) (k : Key) :
    (entriesOf (present (s.fieldsOf k.group?))).lookup k.name =
      (s.value? k).map fun x => (k.kind.datum x).value := by
  rw [Toml.lookup_present (nodup_fieldsOf s k.group?), lookup_fieldsOf, Option.bind_some,
    Option.map_map]
  rfl

/-- Only the version has values that are not of its kind. -/
theorem fits_of_value? (hversion : s.version < Text.word32Limit) {k : Key} {x : k.kind.Value}
    (hx : s.value? k = some x) : k.kind.Fits x := by
  cases k with
  | version => exact Option.some_inj.mp hx ▸ hversion
  | _ => trivial

section

variable (hversion : s.version < Text.word32Limit)
include hversion

theorem plainFields_fieldsOf (group? : Option String) :
    Toml.PlainFields (present (s.fieldsOf group?)) := by
  have hbare : ∀ k : Key, Toml.IsBareName k.name := by
    intro k
    cases k <;> decide +kernel
  refine Toml.plainFields_present _ rfl ?_ (nodup_fieldsOf s group?) ?_
  · rw [map_fst_fieldsOf]
    intro name hname
    obtain ⟨k, -, rfl⟩ := List.mem_map.mp hname
    exact hbare k
  · intro f hf d hd
    obtain ⟨k, -, rfl⟩ := List.mem_map.mp hf
    obtain ⟨x, hx, rfl⟩ := Option.map_eq_some_iff.mp hd
    exact (fits_of_value? hversion hx).datum

/-- No name of the document needs quotes or occurs twice. -/
theorem isPlain_draft : s.draft.IsPlain := by
  have hgroups : ∀ g ∈ groups, Toml.IsBareName g := by decide +kernel
  rw [draft_eq]
  refine ⟨plainFields_fieldsOf hversion none, fun t ht => ?_, ?_⟩
  · obtain ⟨g, hg, rfl⟩ := List.mem_map.mp ht
    exact ⟨hgroups g hg, plainFields_fieldsOf hversion (some g)⟩
  · have hnames : ((s.fieldsOf none).map Prod.fst ++ groups).Nodup := by
      rw [map_fst_fieldsOf]
      decide
    exact hnames.sublist ((Toml.map_fst_present_sublist _).append_right groups)

/-! ## 3. Entries -/

/-- The entries that are written for a group are those of its keys. -/
theorem isKey_of_mem_fieldsOf {group? : Option String} {e : String × Toml.Value}
    (he : e ∈ entriesOf (present (s.fieldsOf group?))) : IsKey group? e := by
  obtain ⟨f, hf, rfl⟩ := List.mem_map.mp he
  obtain ⟨k, hk, hfield⟩ := List.mem_map.mp (Toml.exists_of_mem_present hf)
  obtain ⟨hname, hvalue⟩ := Prod.mk.inj hfield
  obtain ⟨x, hx, hdatum⟩ := Option.map_eq_some_iff.mp hvalue
  refine ⟨k, Key.of_mem_allIn hk, hname, ?_⟩
  rw [← hdatum, (fits_of_value? hversion hx).ofToml?_datum]
  rfl

/-- **The document of settings is well typed.** -/
theorem wellTyped_draft : WellTyped s.draft.entries := by
  refine wellTyped_of_keys fun e he => ?_
  rw [draft_eq, Toml.Draft.entries, List.map_map] at he
  rcases List.mem_append.mp he with he | he
  · exact .inl (isKey_of_mem_fieldsOf hversion he)
  · obtain ⟨g, hg, rfl⟩ := List.mem_map.mp he
    exact .inr ⟨hg, _, rfl, fun inner hinner => isKey_of_mem_fieldsOf hversion hinner⟩

/-- **Each key has in the document the value that it has in the settings.** -/
theorem inDocument?_draft (k : Key) : k.inDocument? s.draft.entries = s.value? k := by
  have hproper := (isPlain_draft hversion).isTable
  have hfind : k.find? Toml.Value.table? s.draft.entries =
      (entriesOf (present (s.fieldsOf k.group?))).lookup k.name := by
    cases hgroup : k.group? with
    | none =>
      -- no record has the name of a key
      have hnone : List.lookup k.name (groups.map fun g =>
          (g, Toml.Value.table (entriesOf (present (s.fieldsOf (some g)))))) = none := by
        refine lookup_eq_none_of_not_mem ?_
        rw [List.map_map]
        exact fun hmem => Key.name_not_mem_groups hgroup (by simpa using hmem)
      simp only [Key.find?, hgroup, entriesBelow]
      rw [draft_eq, Toml.Draft.entries, List.map_map, List.lookup_append]
      exact (congrArg _ hnone).trans (Option.or_none)
    | some group =>
      have hmem : (group, Toml.Value.table (entriesOf (present (s.fieldsOf (some group))))) ∈
          s.draft.entries := by
        rw [draft_eq, Toml.Draft.entries, List.map_map]
        exact List.mem_append_right _ (List.mem_map_of_mem (Key.group_mem_groups hgroup))
      simp only [Key.find?, hgroup, entriesBelow]
      rw [(lookup_eq_some_iff_mem hproper.names).mpr hmem]
      rfl
  rw [Key.inDocument?, hfind, lookup_entriesOf_fieldsOf]
  cases hx : s.value? k with
  | none => rfl
  | some x => exact (fits_of_value? hversion hx).ofToml?_datum

end

end Settings

end GoResolver
