import GoResolver.Proofs.Settings.Stacking
import GoResolver.Proofs.Text.Lines

/-!
# Variables key by key

A variable names a key when its name is `GS_` and the names that lead to the key, with two
underscores between them, in upper or lower case (`Names`).  This is what the reading of names
finds (`place?_of_names`), although the names of keys have underscores themselves.

So the layer of an environment has, at a key, the value of the variable that names it, and of
several ones the last (`find?_layer`).  What value the text of a variable denotes is left to the
library, and so is how layers are laid over each other, as long as it goes by names.
-/

namespace GoResolver

namespace Variable

open Settings (Key)

/-! ## 1. Upper and lower case -/

/-- What is checked of each ASCII character holds of all of them. -/
theorem of_ascii {P : Char → Prop} (hascii : ∀ n < 128, P (Char.ofNat n)) {c : Char}
    (hc : c.toNat < 128) : P c :=
  Char.ofNat_toNat c ▸ hascii c.toNat hc

/-- What holds of ASCII and of all characters without a lower case holds of all. -/
theorem forall_char {P : Char → Prop} (hascii : ∀ n < 128, P (Char.ofNat n))
    (hother : ∀ c : Char, c.toLower = c → P c) (c : Char) : P c := by
  by_cases hc : c.toNat < 128
  · exact of_ascii hascii hc
  · refine hother c (dif_neg fun h => hc ?_)
    have hz : c.toNat ≤ 90 := h.2
    omega

theorem toUpper_toLower (c : Char) : c.toLower.toUpper = c.toUpper :=
  forall_char (P := fun c => c.toLower.toUpper = c.toUpper) (by decide +kernel)
    (fun _ h => by rw [h]) c

theorem isBlank_toLower (c : Char) : Text.isBlank c.toLower = Text.isBlank c :=
  forall_char (P := fun c => Text.isBlank c.toLower = Text.isBlank c) (by decide +kernel)
    (fun _ h => by rw [h]) c

/-! ## 2. Names -/

/-- Whether the name of a variable starts with `GS_`, in upper or lower case; blanks around the name
do not count. -/
def InNamespace (name : String) : Prop :=
  ((Text.trim name.toList).take namespaceText.length).map Char.toUpper = namespaceText.toList

instance (name : String) : Decidable (InNamespace name) := inferInstanceAs (Decidable (_ = _))

/-- Whether the name of a variable is that of a key, in upper or lower case. -/
def Names (variableName : String) (k : Key) : Prop :=
  variableName.toList.map Char.toLower = ("gs_" ++ "__".intercalate k.place).toList

instance (variableName : String) (k : Key) : Decidable (Names variableName k) :=
  inferInstanceAs (Decidable (_ = _))

variable {name : String} {k : Key}

theorem toLower_mem_of_names (h : Names name k) {c : Char} (hc : c ∈ name.toList) :
    c.toLower ∈ ("gs_" ++ "__".intercalate k.place).toList :=
  h ▸ List.mem_map_of_mem hc

theorem trim_of_names (h : Names name k) : Text.trim name.toList = name.toList := by
  have hname : ∀ k : Key, ("gs_" ++ "__".intercalate k.place).toList.any Text.isBlank = false := by
    intro k
    cases k <;> decide +kernel
  refine Text.trim_of_forall_not_blank fun c hc => ?_
  rw [← isBlank_toLower]
  exact Bool.eq_false_iff.mpr
    (List.any_eq_false.mp (hname k) _ (toLower_mem_of_names h hc))

theorem lower_of_names (h : Names name k) {c : Char} (hc : c ∈ name.toList) :
    lower c = c.toLower := by
  have hname : ∀ k : Key, '\u212a' ∉ ("gs_" ++ "__".intercalate k.place).toList := by
    intro k
    cases k <;> decide +kernel
  refine if_neg ?_
  rintro rfl
  exact hname k (toLower_mem_of_names h hc)

/-- A variable that names a key starts with `GS_`, and goes on with the names that lead to it. -/
theorem parts_of_names (h : Names name k) :
    (name.toList.take namespaceText.length).map Char.toUpper = namespaceText.toList ∧
    (name.toList.drop namespaceText.length).map lower = ("__".intercalate k.place).toList := by
  have htarget : ∀ k : Key,
      ((("gs_" ++ "__".intercalate k.place).toList.take namespaceText.length).map Char.toUpper =
        namespaceText.toList) ∧
      ("gs_" ++ "__".intercalate k.place).toList.drop namespaceText.length =
        ("__".intercalate k.place).toList := by
    intro k
    cases k <;> decide +kernel
  obtain ⟨htake, hdrop⟩ := htarget k
  rw [← h] at htake hdrop
  constructor
  · rw [← List.map_take, List.map_map] at htake
    rw [← htake]
    exact List.map_congr_left fun c _ => (toUpper_toLower c).symm
  · rw [← List.map_drop] at hdrop
    rw [← hdrop]
    exact List.map_congr_left fun c hc => lower_of_names h (List.mem_of_mem_drop hc)

theorem inNamespace_of_names (h : Names name k) : InNamespace name := by
  rw [InNamespace, trim_of_names h]
  exact (parts_of_names h).1

/-- **A variable that names a key leads to its place.** -/
theorem place?_of_names (h : Names name k) : place? name = some k.place := by
  have hplace : ∀ k : Key,
      Text.pieces '.' (Text.trim (pointed ("__".intercalate k.place).toList)) =
        k.place.map String.toList ∧
      (k.place.map String.toList).contains [] = false := by
    intro k
    cases k <;> decide +kernel
  obtain ⟨hpieces, hnonempty⟩ := hplace k
  obtain ⟨hstart, hrest⟩ := parts_of_names h
  have hid : String.ofList ∘ String.toList = id := funext fun s => String.ofList_toList
  rw [place?, trim_of_names h]
  dsimp only
  rw [if_pos hstart, hrest, hpieces, hnonempty, if_neg Bool.false_ne_true, List.map_map, hid,
    List.map_id]

/-- No two keys have one name. -/
theorem Names.eq {other : Key} (h : Names name k) (hother : Names name other) : k = other :=
  Key.place_injective
    (Option.some_inj.mp ((place?_of_names h).symm.trans (place?_of_names hother)))

/-- The text of the last variable of an environment that names a key. -/
def lastNaming? (environment : List (String × String)) (k : Key) : Option String :=
  (environment.reverse.find? fun e => Names e.1 k).map Prod.snd

theorem lastNaming?_cons (e : String × String) (environment : List (String × String)) (k : Key) :
    lastNaming? (e :: environment) k =
      (lastNaming? environment k <|> if Names e.1 k then some e.2 else none) := by
  rw [lastNaming?, lastNaming?, List.reverse_cons, List.find?_append, List.find?_singleton]
  cases environment.reverse.find? fun e => Names e.1 k with
  | some found => rfl
  | none =>
    by_cases hname : Names e.1 k
    · rw [if_pos hname, if_pos (decide_eq_true hname)]
      rfl
    · rw [if_neg hname, if_neg (by simpa using hname)]
      rfl

/-- Only the program's own variables name keys. -/
theorem lastNaming?_filter (environment : List (String × String)) (k : Key) :
    lastNaming? (environment.filter fun e => InNamespace e.1) k = lastNaming? environment k := by
  induction environment with
  | nil => rfl
  | cons e environment ih =>
    rw [List.filter_cons, lastNaming?_cons]
    by_cases hnamespace : InNamespace e.1
    · rw [if_pos (decide_eq_true hnamespace), lastNaming?_cons, ih]
    · rw [if_neg (by simpa using hnamespace), ih,
        if_neg fun h => hnamespace (inNamespace_of_names h)]
      cases lastNaming? environment k <;> rfl

/-- A single one of the program's own variables names one key. -/
theorem lastNaming?_of_only {environment : List (String × String)} {name text : String} {k : Key}
    (hname : Names name k)
    (honly : (environment.filter fun e => InNamespace e.1) = [(name, text)]) (other : Key) :
    lastNaming? environment other = if other = k then some text else none := by
  rw [← lastNaming?_filter, honly, lastNaming?_cons]
  by_cases hother : other = k
  · rw [if_pos hother, if_pos (hother ▸ hname)]
    rfl
  · rw [if_neg hother, if_neg fun h => hother (h.eq hname)]
    rfl

end Variable

/-! ## 3. Layers -/

namespace SettingsLibrary

open Setting (table?)
open Settings (Key Shaped shaped_nil find?_stack)
open Variable (InNamespace Names inNamespace_of_names lastNaming? lastNaming?_cons)

variable {lib : SettingsLibrary} {name : String} {k : Key}

section

variable (text : String)

/-- A variable that is not the program's own is no setting. -/
theorem layerOf_eq_nil (h : ¬ InNamespace name) : lib.layerOf name text = [] := by
  have hplace : Variable.place? name = none := if_neg h
  rw [layerOf, hplace]

/-- The layer of a variable that names a key has the variable's value there. -/
theorem layerOf_of_names (h : Names name k) :
    lib.layerOf name text = match k.group? with
      | none => [(k.name, lib.valueOf text)]
      | some group => [(group, .table [(k.name, lib.valueOf text)])] := by
  rw [layerOf, Variable.place?_of_names h]
  cases k <;> rfl

/-- It has no other key. -/
theorem find?_layerOf (h : Names name k) (other : Key) :
    other.find? table? (lib.layerOf name text) =
      if other = k then some (lib.valueOf text) else none := by
  rw [layerOf_of_names text h]
  cases k <;> cases other <;> rfl

theorem shaped_layerOf (h : Names name k)
    (hleaf : ∀ entries, lib.valueOf text ≠ .table entries) :
    Shaped (lib.layerOf name text) where
  names := by
    rw [layerOf_of_names text h]
    cases k.group? <;> exact List.nodup_singleton _
  groups group hgroup v hv := by
    rw [layerOf_of_names text h] at hv
    rcases List.mem_pair.mp hgroup with rfl | rfl <;> cases k <;> cases hv <;>
      exact ⟨_, rfl, List.nodup_singleton _⟩
  leaves other entries := by
    rw [find?_layerOf text h]
    split
    · exact fun hvalue => hleaf entries (Option.some_inj.mp hvalue)
    · exact nofun

end

/-- Where no variable is the program's own, there are no settings. -/
theorem layer_eq_nil (hlib : lib.Overlays) {environment : List (String × String)}
    (h : ∀ e ∈ environment, ¬ InNamespace e.1) : lib.layer environment = [] := by
  rw [layer]
  induction environment with
  | nil => rfl
  | cons e environment ih =>
    obtain ⟨hfirst, hrest⟩ := List.forall_mem_cons.mp h
    rw [List.foldl_cons, layerOf_eq_nil e.2 hfirst, hlib.stack_nil_nil]
    exact ih hrest

variable (lib) in
/-- Each of the program's own variables names a key, and its text is not that of a table. -/
def NamesKeys (environment : List (String × String)) : Prop :=
  ∀ e ∈ environment, InNamespace e.1 →
    (∃ k, Names e.1 k) ∧ ∀ entries, lib.valueOf e.2 ≠ .table entries

/-- A variable adds its value to what the variables before it have said. -/
theorem find?_stack_layerOf (hlib : lib.Overlays) {e : String × String}
    (he : InNamespace e.1 → (∃ k, Names e.1 k) ∧ ∀ entries, lib.valueOf e.2 ≠ .table entries)
    {below : Layer} (hbelow : Shaped below) :
    Shaped (lib.stack below (lib.layerOf e.1 e.2)) ∧ ∀ k : Key,
      k.find? table? (lib.stack below (lib.layerOf e.1 e.2)) =
        ((if Names e.1 k then some (lib.valueOf e.2) else none) <|> k.find? table? below) := by
  by_cases hnamespace : InNamespace e.1
  · obtain ⟨⟨named, hnamed⟩, hleaf⟩ := he hnamespace
    have hshaped := shaped_layerOf e.2 hnamed hleaf
    refine ⟨hshaped.stack hlib hbelow, fun k => ?_⟩
    rw [find?_stack hlib hshaped hbelow, find?_layerOf e.2 hnamed]
    by_cases hk : k = named
    · rw [if_pos hk, if_pos (hk ▸ hnamed)]
    · rw [if_neg hk, if_neg fun h => hk (h.eq hnamed)]
  · rw [layerOf_eq_nil e.2 hnamespace]
    refine ⟨shaped_nil.stack hlib hbelow, fun k => ?_⟩
    rw [find?_stack hlib shaped_nil hbelow, k.find?_nil,
      if_neg fun h => hnamespace (inNamespace_of_names h)]

/-- **The layer of an environment has at each key the value of the variable that names it**, and of
several ones the last. -/
theorem find?_layer (hlib : lib.Overlays) {environment : List (String × String)}
    (h : lib.NamesKeys environment) :
    Shaped (lib.layer environment) ∧ ∀ k : Key,
      k.find? table? (lib.layer environment) = (lastNaming? environment k).map lib.valueOf := by
  -- the variables are read in order, each over the layer of those before it
  have hfold : ∀ below, Shaped below →
      Shaped (environment.foldl (fun l e => lib.stack l (lib.layerOf e.1 e.2)) below) ∧
      ∀ k : Key,
        k.find? table? (environment.foldl (fun l e => lib.stack l (lib.layerOf e.1 e.2)) below) =
          ((lastNaming? environment k).map lib.valueOf <|> k.find? table? below) := by
    induction environment with
    | nil => exact fun below hbelow => ⟨hbelow, fun k => rfl⟩
    | cons e environment ih =>
      obtain ⟨he, hrest⟩ := List.forall_mem_cons.mp h
      intro below hbelow
      obtain ⟨hshaped, hfind⟩ := find?_stack_layerOf hlib he hbelow
      obtain ⟨hshaped', hfind'⟩ := ih hrest _ hshaped
      rw [List.foldl_cons]
      refine ⟨hshaped', fun k => ?_⟩
      rw [hfind', hfind, lastNaming?_cons]
      cases lastNaming? environment k with
      | some text => rfl
      | none =>
        by_cases hname : Names e.1 k
        · rw [if_pos hname, if_pos hname]
          rfl
        · rw [if_neg hname, if_neg hname]
          rfl
  obtain ⟨hshaped, hfind⟩ := hfold [] shaped_nil
  refine ⟨hshaped, fun k => ?_⟩
  rw [layer, hfind, k.find?_nil]
  cases (lastNaming? environment k).map lib.valueOf <;> rfl

end SettingsLibrary

end GoResolver
