import GoResolver.Proofs.FileTree.Spelling
import GoResolver.Proofs.Path.Normalization
import Mathlib.Algebra.Order.BigOperators.Group.List
import Mathlib.Algebra.Order.Group.Nat
import Mathlib.Algebra.Ring.Nat

/-!
# The normal spelling of a place

A path from the root that does not climb above it can be written by the names that it leads to, and
normalizing writes it so: a slash before each name and nothing else.

1. Its components are then the root and these names (`components_normalize_of_height_eq_zero`).
2. Names with slashes between them are read back as these names, alone or behind a directory
   (`components_child_slashed`).
3. Of all spellings of a path from the root the normal one is the shortest
   (`utf8ByteSize_normalize_le`).  Every other spelling has the same steps and more segments, and a
   segment costs its bytes and a slash.
4. Behind a directory that is spelled normally, names give a path that is (`child_eq_normalize`).
-/

namespace GoResolver.Path

/-! ## 1. Paths from the root -/

/-- **A path from the root that does not climb above it is normalized to the names that it leads
to.** -/
theorem components_normalize_of_height_eq_zero {p : Path} (habs : p.isAbsolute = true)
    (hheight : p.height = 0) (cwd : List String) :
    p.normalize.components = .root :: (p.resolved cwd).map .name := by
  obtain ⟨below, hcomponents, hresolved⟩ := p.exists_components_normalize
  have hrest : p.rest = [.root] := by
    rw [rest, oddUp, hheight, habs]
    rfl
  have hbelow : p.resolved cwd = below := by
    rw [hresolved, hheight, above_zero, startFrom, habs, if_pos rfl, List.nil_append]
  rw [hcomponents, hrest, hbelow]
  rfl

theorem isAbsolute_normalize (p : Path) : p.normalize.isAbsolute = p.isAbsolute := by
  obtain ⟨below, hcomponents, -⟩ := p.exists_components_normalize
  exact (isAbsolute_and_steps_normalize hcomponents).1

/-- What such a path leads to is made of steps. -/
theorem isStep_of_mem_resolved {p : Path} (habs : p.isAbsolute = true) (hheight : p.height = 0)
    {cwd : List String} {s : String} (h : s ∈ p.resolved cwd) : IsStep (.name s) := by
  have hsteps : p.normalize.steps = (p.resolved cwd).map .name := by
    have hcomponents := components_normalize_of_height_eq_zero habs hheight cwd
    exact (lead_and_steps_of_components_eq (.inr rfl) (by simp) hcomponents).2
  exact isStep_of_mem_steps (p := p.normalize) (by rw [hsteps]; exact List.mem_map_of_mem h)

/-! ## 2. Names with slashes between them -/

section

variable {names : List String}

theorem forall_isStep_map_name (h : ∀ s ∈ names, IsStep (.name s)) :
    ∀ c ∈ names.map Component.name, IsStep c := by
  intro c hc
  obtain ⟨s, hs, rfl⟩ := List.mem_map.mp hc
  exact h s hs

theorem lead_slashed_names (h : ∀ s ∈ names, IsStep (.name s)) : lead ⟨slashed names⟩ = none := by
  have hlead := (lead_and_steps_slashed_segments (forall_isStep_map_name h)).1
  rwa [map_segment_map_name] at hlead

/-- **Names behind a directory are read back.** -/
theorem components_child_slashed (h : ∀ s ∈ names, IsStep (.name s)) (dir : Path) :
    (dir.child (slashed names)).components = dir.components ++ names.map .name := by
  have hcomponents := components_slashed_segments (forall_isStep_map_name h)
  rw [map_segment_map_name] at hcomponents
  rw [child, components_join_of_lead_eq_none dir (lead_slashed_names h), hcomponents]

theorem slashed_ne_empty (h : ∀ s ∈ names, IsStep (.name s)) (hne : names ≠ []) :
    slashed names ≠ "" := by
  intro hempty
  have hmem : "" ∈ names := by
    rw [← segments_slashed hne fun s hs => (h s hs).2, hempty]
    exact List.mem_singleton_self _
  exact absurd (h "" hmem) (by decide)

/-- Names end in no slash. -/
theorem getLast?_slashed_ne (h : ∀ s ∈ names, IsStep (.name s)) :
    (slashed names).toList.getLast? ≠ some '/' := by
  intro hlast
  obtain ⟨t, ht⟩ := List.getLast?_eq_some_iff.mp hlast
  have hne : names ≠ [] := by
    rintro rfl
    cases hlast
  have hslash : ∀ s ∈ names, '/' ∉ s.toList := fun s hs => (h s hs).2
  -- otherwise the last segment would be empty
  have htext : slashed names = String.ofList t ++ "/" ++ "" := by
    rw [← String.toList_inj, ht]
    simp
  have hempty : "" ∈ names := by
    rw [← segments_slashed hne hslash, htext, segments_append_slash]
    exact List.mem_append_right _ (List.mem_singleton_self _)
  exact absurd (h "" hempty) (by decide)

/-! ## 3. The shortest spelling -/

/-- Each segment costs its bytes and a slash, but for the first slash. -/
theorem utf8ByteSize_slashed {segs : List String} (hne : segs ≠ []) :
    (slashed segs).utf8ByteSize + 1 = (segs.map fun s => s.utf8ByteSize + 1).sum := by
  have hslash : ("/" : String).utf8ByteSize = 1 := by decide
  induction segs with
  | nil => exact absurd rfl hne
  | cons s segs ih =>
    cases segs with
    | nil => rw [slashed, String.intercalate_singleton, List.map_singleton, List.sum_singleton]
    | cons s' segs =>
      have hrest := ih (List.cons_ne_nil s' segs)
      rw [slashed] at hrest
      rw [slashed, String.intercalate_cons_cons, String.utf8ByteSize_append,
        String.utf8ByteSize_append, hslash, List.map_cons, List.sum_cons, ← hrest]
      omega

/-- A normalized path is spelled from its components. -/
theorem normalize_eq_ofComponents (p : Path) :
    p.normalize = ofComponents p.normalize.components := by
  rw [components_normalize, normalize]

/-- **Of all spellings of a path from the root the normal one is the shortest.** -/
theorem utf8ByteSize_normalize_le {p q : Path} (habs : q.isAbsolute = true)
    (h : p.normalize.Same q) : p.normalize.text.utf8ByteSize ≤ q.text.utf8ByteSize := by
  have hslash : ("/" : String).utf8ByteSize = 1 := by decide
  obtain ⟨rest, hsegs⟩ : ∃ rest, q.segments = "" :: rest := by
    rcases q.text_cases with ⟨-, hempty⟩ | ⟨-, hsegs⟩ | ⟨hrel, -⟩
    · exact ⟨[], hempty⟩
    · exact hsegs
    · rw [hrel] at habs
      cases habs
  have hcomponents : p.normalize.components = .root :: q.steps := by
    have hsame : p.normalize.components = q.components := h
    rw [hsame, components_eq, isAbsolute_iff_lead_eq_root.mp habs]
    rfl
  -- the steps are written as the segments that are not trivial
  have hsteps : q.steps.map Component.segment = rest.filter fun s => !isTrivial s := by
    rw [steps, ← filter_segments, hsegs]
    rfl
  have hnormal : p.normalize.text = "/" ++ slashed (rest.filter fun s => !isTrivial s) := by
    rw [normalize_eq_ofComponents, hcomponents, ofComponents, hsteps]
  have hq : q.text.utf8ByteSize + 1 = 1 + (rest.map fun s => s.utf8ByteSize + 1).sum := by
    rw [← slashed_segments, hsegs, utf8ByteSize_slashed (List.cons_ne_nil _ _), List.map_cons,
      List.sum_cons]
    rfl
  rw [hnormal, String.utf8ByteSize_append, hslash]
  by_cases hempty : (rest.filter fun s => !isTrivial s) = []
  · -- only the root's slash is left
    have hne : q.text.utf8ByteSize ≠ 0 := by
      rw [ne_eq, String.utf8ByteSize_eq_zero_iff]
      intro htext
      rw [isAbsolute, htext] at habs
      cases habs
    have hnone : (slashed []).utf8ByteSize = 0 := by decide
    rw [hempty, hnone]
    omega
  · have hsize := utf8ByteSize_slashed hempty
    have hle : ((rest.filter fun s => !isTrivial s).map fun s => s.utf8ByteSize + 1).sum ≤
        (rest.map fun s => s.utf8ByteSize + 1).sum :=
      (List.filter_sublist.map _).sum_le_sum (by simp)
    omega

end

/-! ## 4. Behind a directory that is spelled normally -/

/-- **Names behind a normally spelled directory make a normally spelled path.** -/
theorem child_eq_normalize {p dir : Path} {above below : List String}
    (hdir : dir.normalize = dir) (hcomponents : dir.components = .root :: above.map .name)
    (habove : above ≠ []) (hbelow : below ≠ [])
    (hsteps : ∀ s ∈ above ++ below, IsStep (.name s))
    (hp : p.normalize.components = .root :: (above ++ below).map .name) :
    dir.child (slashed below) = p.normalize := by
  rw [List.forall_mem_append] at hsteps
  have htext : ∀ names : List String,
      ofComponents (.root :: names.map .name) = ⟨"/" ++ slashed names⟩ := by
    intro names
    rw [ofComponents, map_segment_map_name]
  have hdirtext : dir = ⟨"/" ++ slashed above⟩ := by
    rw [← hdir, normalize_eq_ofComponents, hdir, hcomponents, htext]
  have hlast : ("/" ++ slashed above).toList.getLast? ≠ some '/' := by
    have hslashed : (slashed above).toList ≠ [] := by
      rw [ne_eq, String.toList_eq_nil_iff]
      exact slashed_ne_empty hsteps.1 habove
    rw [String.toList_append, List.getLast?_append_of_ne_nil _ hslashed]
    exact getLast?_slashed_ne hsteps.1
  have habs : isAbsolute ⟨slashed below⟩ = false :=
    isAbsolute_of_lead_eq_none (lead_slashed_names hsteps.2)
  rw [normalize_eq_ofComponents p, hp, htext, slashed_append habove hbelow, hdirtext, child, join,
    habs, if_neg Bool.false_ne_true, if_neg (not_or.mpr ⟨by simp, hlast⟩)]
  simp only [String.append_assoc]

end GoResolver.Path
