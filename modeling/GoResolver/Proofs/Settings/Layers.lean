import GoResolver.Settings.Typed

/-!
# Settings in a file's table

1. The settings in a file's table are the settings of its values, name by name
   (`lookup_of_ofTomlEntries?`).
2. What is written for a value of a type is read as the value (`IsReadAs`).
-/

namespace GoResolver.Setting

variable {α : Type} {entries : List (String × Toml.Value)} {layer : Layer}

/-! ## 1. Tables -/

/-- Each name leads to the setting of its value. -/
theorem lookup_of_ofTomlEntries? (h : ofTomlEntries? entries = some layer) (name : String) :
    layer.lookup name = (entries.lookup name).bind ofToml? := by
  induction entries generalizing layer with
  | nil =>
    rw [ofTomlEntries?, Option.some_inj] at h
    rw [← h]
    rfl
  | cons e entries ih =>
    obtain ⟨first, v⟩ := e
    rw [ofTomlEntries?, Option.bind_eq_bind, Option.bind_eq_some_iff] at h
    obtain ⟨x, hx, h⟩ := h
    rw [Option.bind_eq_bind, Option.bind_eq_some_iff] at h
    obtain ⟨rest, hrest, h⟩ := h
    rw [← Option.some_inj.mp h, List.lookup_cons, List.lookup_cons]
    cases name == first with
    | true => exact hx.symm
    | false => exact ih hrest

theorem map_fst_of_ofTomlEntries? (h : ofTomlEntries? entries = some layer) :
    layer.map Prod.fst = entries.map Prod.fst := by
  induction entries generalizing layer with
  | nil =>
    rw [ofTomlEntries?, Option.some_inj] at h
    rw [← h]
    rfl
  | cons e entries ih =>
    obtain ⟨first, v⟩ := e
    rw [ofTomlEntries?, Option.bind_eq_bind, Option.bind_eq_some_iff] at h
    obtain ⟨x, -, h⟩ := h
    rw [Option.bind_eq_bind, Option.bind_eq_some_iff] at h
    obtain ⟨rest, hrest, h⟩ := h
    rw [← Option.some_inj.mp h, List.map_cons, List.map_cons, ih hrest]

/-- A table is a layer when all its values are settings. -/
theorem exists_ofTomlEntries?_eq (h : ∀ e ∈ entries, (ofToml? e.2).isSome = true) :
    ∃ layer, ofTomlEntries? entries = some layer := by
  induction entries with
  | nil => exact ⟨[], rfl⟩
  | cons e entries ih =>
    obtain ⟨hfirst, hrest⟩ := List.forall_mem_cons.mp h
    obtain ⟨x, hx⟩ := Option.isSome_iff_exists.mp hfirst
    obtain ⟨rest, hlayer⟩ := ih hrest
    refine ⟨(e.1, x) :: rest, ?_⟩
    rw [ofTomlEntries?, hx, hlayer]
    rfl

/-! ## 2. Values -/

/-- What is written for a value of a type is read as the value. -/
def IsReadAs (read : Setting → Typed α) (v : Toml.Value) (x : α) : Prop :=
  ∃ setting, ofToml? v = some setting ∧ (∀ es, setting ≠ .table es) ∧ read setting = .ok x

theorem isReadAs_text (s : String) : IsReadAs asText (.string s) s :=
  ⟨.string s, rfl, by simp, rfl⟩

theorem isReadAs_path (p : Path) : IsReadAs asPath (.string p.text) p :=
  ⟨.string p.text, rfl, by simp, rfl⟩

theorem isReadAs_boolean (b : Bool) : IsReadAs asBool (.boolean b) b :=
  ⟨.boolean b, rfl, by simp, rfl⟩

theorem isReadAs_word32 {n : Nat} (hn : n < Text.word32Limit) :
    IsReadAs asWord32 (.integer n) n := by
  refine ⟨.signed n, rfl, by simp, ?_⟩
  have hrange : 0 ≤ (n : Int) ∧ (n : Int) < Text.word32Limit := by omega
  rw [asWord32, if_pos hrange, Int.toNat_natCast]

theorem ofTomlItems?_strings (items : List String) :
    ofTomlItems? (items.map .string) = some (items.map .string) := by
  induction items with
  | nil => rfl
  | cons s items ih =>
    rw [List.map_cons, ofTomlItems?, ofToml?, ih]
    rfl

theorem asItems_strings {read : Setting → Typed α} {items : List α} {text : α → String}
    (hread : ∀ a ∈ items, read (.string (text a)) = .ok a) (index : Nat) :
    asItems read index ((items.map text).map .string) = .ok items := by
  induction items generalizing index with
  | nil => rfl
  | cons a items ih =>
    obtain ⟨ha, hitems⟩ := List.forall_mem_cons.mp hread
    rw [List.map_cons, List.map_cons, asItems, ha, ih hitems]
    rfl

/-- A list of texts is read as the list of what each of them is read as. -/
theorem isReadAs_list {read : Setting → Typed α} {text : α → String}
    (hread : ∀ a, read (.string (text a)) = .ok a) (items : List α) :
    IsReadAs (asList read) (.array ((items.map text).map .string)) items := by
  refine ⟨.list ((items.map text).map .string), ?_, by simp, ?_⟩
  · rw [ofToml?, ofTomlItems?_strings]
    rfl
  · exact asItems_strings (fun a _ => hread a) 0

end GoResolver.Setting
