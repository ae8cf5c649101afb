/-!
# Named entries

A list of named values in which a lookup finds the first value of a name.  `setEntry` changes what
one name is found to have and nothing else.
-/

namespace GoResolver

/-- Replaces the entry of a name, or adds one at the end. -/
def setEntry {α : Type} (name : String) (value : α) : List (String × α) → List (String × α)
  | [] => [(name, value)]
  | e :: es => if e.1 = name then (name, value) :: es else e :: setEntry name value es

@[simp] theorem lookup_setEntry_self {α : Type} (name : String) (value : α)
    (es : List (String × α)) : (setEntry name value es).lookup name = some value := by
  induction es with
  | nil => simp [setEntry]
  | cons e es ih =>
    obtain ⟨k, x⟩ := e
    by_cases h : k = name
    · simp [setEntry, h]
    · have hb : (name == k) = false := by simpa using Ne.symm h
      simp [setEntry, h, List.lookup_cons, hb, ih]

theorem lookup_setEntry_of_ne {α : Type} {name other : String} (h : other ≠ name) (value : α)
    (es : List (String × α)) : (setEntry name value es).lookup other = es.lookup other := by
  have hb : (other == name) = false := by simpa using h
  induction es with
  | nil => simp [setEntry, List.lookup_cons, hb]
  | cons e es ih =>
    obtain ⟨k, x⟩ := e
    by_cases hk : k = name
    · subst hk
      simp [setEntry, List.lookup_cons, hb]
    · simp [setEntry, hk, List.lookup_cons, ih]

end GoResolver
