import GoResolver.Entries
import Mathlib.Data.List.Basic
import Mathlib.Data.List.Nodup

/-!
# Looking names up in entries

What is found under a name in a list of entries, and when the order of the list does not matter: a
name is found when it is one of the names (`isSome_lookup_iff`), and where no name occurs twice,
what is found does not depend on the order of the entries (`lookup_eq_of_perm`).  Setting an entry
keeps the names where they are (`map_fst_setEntry`), and a new name is added at the end
(`setEntry_of_not_mem`); so no name comes to occur twice (`nodup_setEntry`).
-/

namespace GoResolver

variable {α : Type} {name : String} {es es' : List (String × α)}

/-- A name is found when some entry has it. -/
theorem isSome_lookup_iff : (es.lookup name).isSome = true ↔ name ∈ es.map Prod.fst := by
  rw [List.lookup_isSome_iff, List.mem_map]
  refine exists_congr fun e => and_congr_right fun _ => ?_
  rw [beq_iff_eq, eq_comm]

/-- What is found is an entry. -/
theorem mem_of_lookup_eq_some {x : α} (h : es.lookup name = some x) : (name, x) ∈ es := by
  obtain ⟨front, back, rfl, -⟩ := List.lookup_eq_some_iff.mp h
  exact List.mem_append_right front List.mem_cons_self

/-- Where no name occurs twice, every entry is found. -/
theorem lookup_eq_some_iff_mem (hnodup : (es.map Prod.fst).Nodup) {x : α} :
    es.lookup name = some x ↔ (name, x) ∈ es := by
  constructor
  · exact mem_of_lookup_eq_some
  · intro hmem
    rw [List.lookup_eq_some_iff]
    obtain ⟨front, back, rfl⟩ := List.append_of_mem hmem
    refine ⟨front, back, rfl, fun e he => ?_⟩
    -- an entry in front has another name
    rw [List.map_append, List.map_cons, List.nodup_append] at hnodup
    have hne := hnodup.2.2 e.1 (List.mem_map_of_mem he) name List.mem_cons_self
    simpa using Ne.symm hne

/-- **Where no name occurs twice, the order of the entries does not matter.** -/
theorem lookup_eq_of_perm (hnodup : (es.map Prod.fst).Nodup) (h : es.Perm es') (name : String) :
    es.lookup name = es'.lookup name := by
  have hnodup' : (es'.map Prod.fst).Nodup := (h.map Prod.fst).nodup_iff.mp hnodup
  refine Option.ext fun x => ?_
  rw [lookup_eq_some_iff_mem hnodup, lookup_eq_some_iff_mem hnodup', h.mem_iff]

theorem lookup_eq_none_of_not_mem (h : name ∉ es.map Prod.fst) : es.lookup name = none := by
  rwa [← Option.not_isSome_iff_eq_none, isSome_lookup_iff]

/-- Setting an entry that is there changes no names. -/
theorem map_fst_setEntry (h : name ∈ es.map Prod.fst) (x : α) :
    (setEntry name x es).map Prod.fst = es.map Prod.fst := by
  induction es with
  | nil => cases h
  | cons e es ih =>
    rw [setEntry]
    by_cases hname : e.1 = name
    · rw [if_pos hname, List.map_cons, List.map_cons, hname]
    · rw [if_neg hname, List.map_cons, List.map_cons, ih]
      rw [List.map_cons, List.mem_cons] at h
      exact h.resolve_left (Ne.symm hname)

/-- A name without an entry gets one at the end. -/
theorem setEntry_of_not_mem (h : name ∉ es.map Prod.fst) (x : α) :
    setEntry name x es = es ++ [(name, x)] := by
  induction es with
  | nil => rfl
  | cons e es ih =>
    rw [List.map_cons, List.mem_cons, not_or] at h
    rw [setEntry, if_neg (Ne.symm h.1), ih h.2, List.cons_append]

/-- Where no name occurs twice, none does after an entry is set. -/
theorem nodup_setEntry (h : (es.map Prod.fst).Nodup) (name : String) (x : α) :
    ((setEntry name x es).map Prod.fst).Nodup := by
  by_cases hname : name ∈ es.map Prod.fst
  · rwa [map_fst_setEntry hname]
  · rw [setEntry_of_not_mem hname, List.map_append, List.map_singleton, ← List.concat_eq_append]
    exact List.Nodup.concat hname h

theorem eq_or_mem_of_mem_setEntry {x : α} {e : String × α} (h : e ∈ setEntry name x es) :
    e = (name, x) ∨ e ∈ es := by
  induction es with
  | nil => exact .inl (List.mem_singleton.mp h)
  | cons first es ih =>
    rw [setEntry] at h
    split at h
    · rcases List.mem_cons.mp h with h | h
      · exact .inl h
      · exact .inr (List.mem_cons_of_mem first h)
    · rcases List.mem_cons.mp h with rfl | h
      · exact .inr List.mem_cons_self
      · exact (ih h).imp_right (List.mem_cons_of_mem first)

end GoResolver
