import GoResolver.Proofs.Entries
import GoResolver.Proofs.Toml.Tables
import GoResolver.Toml.Writer

/-!
# Drafts and their entries

A draft is plain when it needs no quotes around names, when no name occurs twice, and when its
numbers are numbers of the format (`Draft.IsPlain`).  Its entries are a table then
(`Draft.IsPlain.isTable`).

A field that may be left out is found among the entries of a draft when it has a value, and only
then (`lookup_present`).
-/

namespace GoResolver.Toml

/-! ## 1. Plain drafts -/

/-- The names that are written without quotes. -/
def IsBareName (name : String) : Prop := name.toList ≠ [] ∧ name.toList.all isBare = true

instance (name : String) : Decidable (IsBareName name) := inferInstanceAs (Decidable (_ ∧ _))

/-- Whether a value is one of the format: a number has 64 bits with its sign. -/
def Datum.Fits : Datum → Prop
  | .natural n => n < Text.int64Limit
  | _ => True

/-- Fields with bare names, none of which occurs twice, and with values of the format. -/
structure PlainFields (fields : List Field) : Prop where
  bare : ∀ f ∈ fields, IsBareName f.1
  fits : ∀ f ∈ fields, f.2.Fits
  nodup : (fields.map Prod.fst).Nodup

section

variable {f : Field} {fields : List Field} (h : PlainFields (f :: fields))
include h

theorem PlainFields.head : IsBareName f.1 ∧ f.2.Fits :=
  ⟨h.bare f List.mem_cons_self, h.fits f List.mem_cons_self⟩

theorem PlainFields.tail : PlainFields fields where
  bare g hg := h.bare g (List.mem_cons_of_mem f hg)
  fits g hg := h.fits g (List.mem_cons_of_mem f hg)
  nodup := (List.nodup_cons.mp h.nodup).2

end

/-- A draft with plain fields, in itself and in its tables, and with different names for all of
them. -/
structure Draft.IsPlain (d : Draft) : Prop where
  fields : PlainFields d.fields
  tables : ∀ t ∈ d.tables, IsBareName t.1 ∧ PlainFields t.2
  nodup : (d.fields.map Prod.fst ++ d.tables.map Prod.fst).Nodup

/-! ## 2. Entries -/

theorem map_fst_entriesOf (fields : List Field) :
    (entriesOf fields).map Prod.fst = fields.map Prod.fst := by
  rw [entriesOf, List.map_map]
  rfl

/-- No value of a field has tables in it. -/
theorem Datum.everyTable (P : List String → Prop) (d : Datum) : d.value.EveryTable P := by
  cases d with
  | text s => exact .string s
  | natural n => exact .integer n
  | truth b => exact .boolean b
  | texts items =>
    refine .array fun v hv => ?_
    obtain ⟨s, -, rfl⟩ := List.mem_map.mp hv
    exact .string s

theorem everyTable_of_mem_entriesOf (P : List String → Prop) {fields : List Field}
    {e : String × Value} (he : e ∈ entriesOf fields) : e.2.EveryTable P := by
  obtain ⟨f, -, rfl⟩ := List.mem_map.mp he
  exact f.2.everyTable P

/-- **No table of a plain draft has two entries of one name.** -/
theorem Draft.IsPlain.isTable {d : Draft} (h : d.IsPlain) : IsTable Value.IsProper d.entries where
  names := by
    rw [entries, List.map_append, map_fst_entriesOf, List.map_map]
    exact h.nodup
  each e he := by
    rcases List.mem_append.mp he with he | he
    · exact everyTable_of_mem_entriesOf _ he
    · obtain ⟨t, ht, rfl⟩ := List.mem_map.mp he
      refine .table ?_ fun inner hinner => everyTable_of_mem_entriesOf _ hinner
      rw [map_fst_entriesOf]
      exact (h.tables t ht).2.nodup

/-! ## 3. Fields that may be left out -/

variable {fields : List (String × Option Datum)}

theorem exists_of_mem_present {f : Field} (h : f ∈ present fields) : (f.1, some f.2) ∈ fields := by
  obtain ⟨g, hg, hvalue⟩ := List.mem_filterMap.mp h
  obtain ⟨d, hd, rfl⟩ := Option.map_eq_some_iff.mp hvalue
  rwa [← hd]

/-- The names of the fields that have values are among the names of all. -/
theorem map_fst_present_sublist (fields : List (String × Option Datum)) :
    ((present fields).map Prod.fst).Sublist (fields.map Prod.fst) := by
  induction fields with
  | nil => exact List.Sublist.refl []
  | cons f fields ih =>
    obtain ⟨name, value⟩ := f
    cases value with
    | none => exact ih.cons name
    | some d => exact ih.cons_cons name

/-- Fields are plain when all of them are, those without a value included. -/
theorem plainFields_present (names : List String) (hnames : fields.map Prod.fst = names)
    (hbare : ∀ name ∈ names, IsBareName name) (hnodup : names.Nodup)
    (hfits : ∀ f ∈ fields, ∀ d ∈ f.2, d.Fits) : PlainFields (present fields) where
  bare f hf := hbare f.1 (hnames ▸ List.mem_map_of_mem (exists_of_mem_present hf))
  fits f hf := hfits _ (exists_of_mem_present hf) f.2 rfl
  nodup := (map_fst_present_sublist fields).nodup (hnames ▸ hnodup)

/-- **A name leads to the value of its field, if the field has one.** -/
theorem lookup_present (hnodup : (fields.map Prod.fst).Nodup) (name : String) :
    (entriesOf (present fields)).lookup name =
      (fields.lookup name).bind fun d => d.map Datum.value := by
  induction fields with
  | nil => rfl
  | cons f fields ih =>
    obtain ⟨first, value⟩ := f
    rw [List.map_cons, List.nodup_cons] at hnodup
    have hrest := ih hnodup.2
    rw [List.lookup_cons]
    by_cases hname : name = first
    · subst hname
      rw [beq_self_eq_true]
      cases value with
      | some d =>
        show List.lookup name ((name, d.value) :: entriesOf (present fields)) = _
        rw [List.lookup_cons_self]
        rfl
      | none =>
        -- no other field has the name
        refine lookup_eq_none_of_not_mem fun hmem => hnodup.1 ?_
        rw [map_fst_entriesOf] at hmem
        exact (map_fst_present_sublist fields).subset hmem
    · have hne : (name == first) = false := by simpa using hname
      rw [hne, ← hrest]
      cases value with
      | some d =>
        show List.lookup name ((first, d.value) :: entriesOf (present fields)) = _
        rw [List.lookup_cons, hne]
      | none => rfl

end GoResolver.Toml
