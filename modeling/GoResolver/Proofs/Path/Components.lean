import GoResolver.Path
import Mathlib.Data.List.Infix

/-!
# What paths mean after they were joined and cut

A path is kept as text and compared by its components, so every operation on paths has two sides.
Here the components of the results are computed, once for each operation.

A path's components are its lead, which is the root or a first `.`, and its `steps`, which are the
segments that are not trivial (`components_eq`).  Joining keeps the lead of the first path and puts
the steps of both together (`components_join`).  A path that is spelled from segments has no lead
when the first of them is not trivial (`components_slashed`), and all cutting is of this kind:

* `relativeTo?_eq_some`: what is left of a path behind a directory has the other components;
* `components_ancestors`: a relative path, its parent, and so on up to the empty path, are the
  beginnings of its components, longest first.
-/

namespace GoResolver.Path

/-! ## 1. Segments -/

theorem segments_ne_nil (p : Path) : p.segments ≠ [] := by
  rw [segments, ne_eq, List.map_eq_nil_iff]
  exact Text.pieces_ne_nil '/' _

/-- No segment has a slash. -/
theorem slash_not_mem_of_mem_segments {p : Path} {s : String} (h : s ∈ p.segments) :
    '/' ∉ s.toList := by
  rw [segments, List.mem_map] at h
  obtain ⟨piece, hpiece, rfl⟩ := h
  rw [String.toList_ofList]
  exact Text.not_mem_of_mem_pieces hpiece

/-- A slash between two texts separates the segments of both. -/
theorem segments_append_slash (a b : String) :
    segments ⟨a ++ "/" ++ b⟩ = segments ⟨a⟩ ++ segments ⟨b⟩ := by
  have hslash : "/".toList = ['/'] := by decide
  rw [segments, segments, segments, String.toList_append, String.toList_append, hslash,
    List.append_assoc, List.singleton_append, Text.pieces_append_sep_append, List.map_append]

theorem toList_slashed (segments : List String) :
    (slashed segments).toList = Text.joined ['/'] (segments.map String.toList) := by
  have hjoined : ∀ ps : List (List Char), ['/'].intercalate ps = Text.joined ['/'] ps := by
    intro ps
    induction ps with
    | nil => rfl
    | cons p ps ih =>
      cases ps with
      | nil => simp [Text.joined]
      | cons q qs => rw [List.intercalate_cons_cons, ih, Text.joined]
  rw [slashed, String.toList_intercalate]
  exact hjoined _

/-- The segments between slashes are found again. -/
theorem segments_slashed {segs : List String} (hne : segs ≠ [])
    (h : ∀ s ∈ segs, '/' ∉ s.toList) : segments ⟨slashed segs⟩ = segs := by
  rw [segments, toList_slashed, Text.pieces_joined (by simpa using hne)]
  · simp
  · intro piece hpiece
    obtain ⟨s, hs, rfl⟩ := List.mem_map.mp hpiece
    exact h s hs

/-- A path is its segments with slashes between them. -/
theorem slashed_segments (p : Path) : slashed p.segments = p.text := by
  have hmap : p.segments.map String.toList = Text.pieces '/' p.text.toList := by
    rw [segments, List.map_map]
    simp
  rw [← String.toList_inj, toList_slashed, hmap, Text.joined_pieces]

/-! ## 2. Lead and steps -/

/-- The components of a path but for its lead. -/
def steps (p : Path) : List Component := p.segments.filterMap component?

theorem component?_eq_none_iff {s : String} : component? s = none ↔ isTrivial s = true := by
  rw [component?]
  split
  · next h => simp [h]
  · next h => split <;> simp [h]

/-- The text of a path is empty, or it starts with a slash, or its first segment is not empty. -/
theorem text_cases (p : Path) :
    (p.text = "" ∧ p.segments = [""]) ∨
    (p.isAbsolute = true ∧ ∃ rest, p.segments = "" :: rest) ∨
    (p.isAbsolute = false ∧ p.text ≠ "" ∧ ∃ s rest, p.segments = s :: rest ∧ s ≠ "") := by
  have htext : p.text = String.ofList p.text.toList := String.ofList_toList.symm
  rw [isAbsolute, segments]
  cases hp : p.text.toList with
  | nil =>
    rw [hp] at htext
    exact .inl ⟨htext, rfl⟩
  | cons c t =>
    rw [Text.pieces]
    by_cases hc : c = '/'
    · refine .inr (.inl ⟨by simp [hc], ?_⟩)
      rw [if_pos hc]
      exact ⟨_, rfl⟩
    · refine .inr (.inr ⟨by simp [hc], ?_, ?_⟩)
      · intro h
        rw [h] at hp
        cases hp
      · rw [if_neg hc]
        cases hpieces : Text.pieces '/' t with
        | nil => exact ⟨_, _, rfl, by simp⟩
        | cons q qs => exact ⟨_, _, rfl, by simp⟩

/-- A path is its lead and its steps. -/
theorem components_eq (p : Path) : p.components = p.lead.toList ++ p.steps := by
  rw [components, body]
  cases hlead : p.lead with
  | none => rfl
  | some lead =>
    -- the first segment is the empty one before the root's slash, or the first `.`
    have hfirst : ∃ s rest, p.segments = s :: rest ∧ isTrivial s = true := by
      rw [Path.lead] at hlead
      split at hlead
      · next habs =>
        rcases p.text_cases with ⟨-, hsegs⟩ | ⟨-, rest, hsegs⟩ | ⟨hrel, -⟩
        · exact ⟨"", [], hsegs, rfl⟩
        · exact ⟨"", rest, hsegs, rfl⟩
        · rw [hrel] at habs
          cases habs
      · split at hlead
        · next hhere =>
          obtain ⟨rest, hsegs⟩ := List.head?_eq_some_iff.mp hhere
          exact ⟨".", rest, hsegs, rfl⟩
        · cases hlead
    obtain ⟨s, rest, hsegs, hs⟩ := hfirst
    rw [steps, hsegs, List.filterMap_cons, component?_eq_none_iff.mpr hs, List.tail_cons]

/-- A segment that is not trivial is what its component is written as. -/
theorem segment_of_component?_eq_some {s : String} {c : Component} (h : component? s = some c) :
    c.segment = s := by
  rw [component?, Option.ite_none_left_eq_some] at h
  obtain ⟨-, h⟩ := h
  split at h
  · next hup =>
    rw [← Option.some_inj.mp h, hup]
    rfl
  · rw [← Option.some_inj.mp h]
    rfl

/-- The components that segments can be. -/
def IsStep (c : Component) : Prop := component? c.segment = some c ∧ '/' ∉ c.segment.toList

instance (c : Component) : Decidable (IsStep c) := inferInstanceAs (Decidable (_ ∧ _))

theorem isStep_of_mem_steps {p : Path} {c : Component} (h : c ∈ p.steps) : IsStep c := by
  obtain ⟨s, hs, hc⟩ := List.mem_filterMap.mp h
  rw [IsStep, segment_of_component?_eq_some hc]
  exact ⟨hc, slash_not_mem_of_mem_segments hs⟩

/-- A step is the parent directory or a name. -/
theorem IsStep.eq_up_or_name {c : Component} (h : IsStep c) : c = .up ∨ ∃ s, c = .name s := by
  cases c with
  | root => exact absurd h.1 (by decide)
  | here => exact absurd h.1 (by decide)
  | up => exact .inl rfl
  | name s => exact .inr ⟨s, rfl⟩

/-- Names are written as they are. -/
theorem map_segment_map_name (names : List String) :
    (names.map Component.name).map Component.segment = names := by
  rw [List.map_map]
  exact List.map_id names

theorem lead_cases (p : Path) : p.lead = none ∨ p.lead = some .root ∨ p.lead = some .here := by
  rw [lead]
  split
  · exact .inr (.inl rfl)
  · split
    · exact .inr (.inr rfl)
    · exact .inl rfl

theorem isAbsolute_iff_lead_eq_root {p : Path} : p.isAbsolute = true ↔ p.lead = some .root := by
  rw [lead]
  split
  · next habs => simp [habs]
  · next habs => split <;> simp [habs]

/-- **Two paths are the same when they have one lead and one list of steps.**  No step is a lead, so
none of one path can stand for the lead of the other. -/
theorem same_iff {p q : Path} : p.Same q ↔ p.lead = q.lead ∧ p.steps = q.steps := by
  rw [Same, components_eq, components_eq]
  constructor
  · intro h
    have hstep : ∀ (r : Path) {c : Component} {rest : List Component}, r.steps = c :: rest →
        c ≠ .root ∧ c ≠ .here := by
      intro r c rest hr
      have hc : IsStep c := isStep_of_mem_steps (p := r) (by rw [hr]; exact List.mem_cons_self)
      rcases hc.eq_up_or_name with rfl | ⟨s, rfl⟩ <;> simp
    rcases p.lead_cases with hp | hp | hp <;> rcases q.lead_cases with hq | hq | hq <;>
      rw [hp, hq] at h ⊢
    · exact ⟨rfl, h⟩
    · exact absurd rfl (hstep p h).1
    · exact absurd rfl (hstep p h).2
    · exact absurd rfl (hstep q h.symm).1
    · exact ⟨rfl, (List.cons.inj h).2⟩
    · cases (List.cons.inj h).1
    · exact absurd rfl (hstep q h.symm).2
    · cases (List.cons.inj h).1
    · exact ⟨rfl, (List.cons.inj h).2⟩
  · rintro ⟨hlead, hsteps⟩
    rw [hlead, hsteps]

/-- The lead and the steps are found again in the components. -/
theorem lead_and_steps_of_components_eq {p : Path} {lead : Option Component} {cs : List Component}
    (hlead : lead = none ∨ lead = some .root) (hcs : ∀ c ∈ cs, c ≠ .root ∧ c ≠ .here)
    (h : p.components = lead.toList ++ cs) : p.lead = lead ∧ p.steps = cs := by
  rw [components_eq] at h
  have hroot : ∀ rest, p.steps ≠ .root :: rest := by
    intro rest hsteps
    have hroot : IsStep .root := isStep_of_mem_steps (p := p) (by simp [hsteps])
    exact absurd hroot (by decide)
  rcases hlead with rfl | rfl <;> rcases p.lead_cases with hp | hp | hp <;> rw [hp] at h ⊢
  · exact ⟨rfl, h⟩
  · exact absurd rfl (hcs .root (by rw [← List.nil_append cs, ← Option.toList_none, ← h]; simp)).1
  · exact absurd rfl (hcs .here (by rw [← List.nil_append cs, ← Option.toList_none, ← h]; simp)).2
  · exact absurd h (hroot cs)
  · exact ⟨rfl, (List.cons.inj h).2⟩
  · cases (List.cons.inj h).1

theorem isAbsolute_eq_of_same {p q : Path} (h : p.Same q) : p.isAbsolute = q.isAbsolute := by
  rw [Bool.eq_iff_iff, isAbsolute_iff_lead_eq_root, isAbsolute_iff_lead_eq_root,
    (same_iff.mp h).1]

/-! ## 3. Joining -/

theorem join_of_text_eq_empty {p q : Path} (hp : p.text = "") (hq : q.isAbsolute = false) :
    p.join q = q := by
  rw [join, hq, if_neg Bool.false_ne_true, if_pos (.inl hp), hp, String.empty_append]

/-- The segments of a joined path are those of the first path, but for an empty one at its end, and
those of the second. -/
theorem exists_segments_join {p q : Path} (hp : p.text ≠ "") (hq : q.isAbsolute = false) :
    ∃ front, front ≠ [] ∧ (p.segments = front ∨ p.segments = front ++ [""]) ∧
      (p.join q).segments = front ++ q.segments := by
  rw [join, hq, if_neg Bool.false_ne_true]
  split
  · next h =>
    -- the text of the first path ends in a slash
    obtain ⟨t, ht⟩ := List.getLast?_eq_some_iff.mp (h.resolve_left hp)
    have htext : p.text = String.ofList t ++ "/" ++ "" := by
      rw [← String.toList_inj, ht]
      simp
    have hp' : p = ⟨String.ofList t ++ "/" ++ ""⟩ := by
      rw [← htext]
    refine ⟨segments ⟨String.ofList t⟩, segments_ne_nil _, .inr ?_, ?_⟩
    · rw [hp', segments_append_slash]
      rfl
    · rw [htext, String.append_empty, segments_append_slash]
  · exact ⟨p.segments, segments_ne_nil p, .inl rfl, segments_append_slash _ _⟩

theorem steps_join (p : Path) {q : Path} (hq : q.isAbsolute = false) :
    (p.join q).steps = p.steps ++ q.steps := by
  by_cases hp : p.text = ""
  · have hempty : p = ⟨""⟩ := by rw [← hp]
    have hnone : p.steps = [] := by
      rw [hempty]
      rfl
    rw [join_of_text_eq_empty hp hq, hnone, List.nil_append]
  · obtain ⟨front, -, hfront, hjoin⟩ := exists_segments_join hp hq
    rw [steps, hjoin, List.filterMap_append, steps, steps]
    rcases hfront with hfront | hfront
    · rw [hfront]
    · have hempty : [""].filterMap component? = [] := rfl
      rw [hfront, List.filterMap_append, hempty, List.append_nil]

theorem lead_join {p q : Path} (hp : p.text ≠ "") (hq : q.isAbsolute = false) :
    (p.join q).lead = p.lead := by
  have habs : (p.join q).isAbsolute = p.isAbsolute := by
    obtain ⟨c, t, ht⟩ : ∃ c t, p.text.toList = c :: t := by
      cases h : p.text.toList with
      | nil => exact absurd (String.toList_eq_nil_iff.mp h) hp
      | cons c t => exact ⟨c, t, rfl⟩
    rw [join, hq, if_neg Bool.false_ne_true]
    split <;> simp [isAbsolute, ht]
  have hhead : (p.join q).segments.head? = p.segments.head? := by
    obtain ⟨front, hne, hfront, hjoin⟩ := exists_segments_join hp hq
    rw [hjoin, List.head?_append_of_ne_nil _ hne]
    rcases hfront with hfront | hfront
    · rw [hfront]
    · rw [hfront, List.head?_append_of_ne_nil _ hne]
  rw [lead, habs, hhead, lead]

/-- **Joining puts the steps of the second path after the components of the first.** -/
theorem components_join {p q : Path} (hp : p.text ≠ "") (hq : q.isAbsolute = false) :
    (p.join q).components = p.components ++ q.steps := by
  rw [components_eq, lead_join hp hq, steps_join p hq, components_eq, List.append_assoc]

theorem isAbsolute_of_lead_eq_none {p : Path} (h : p.lead = none) : p.isAbsolute = false := by
  cases habs : p.isAbsolute with
  | false => rfl
  | true =>
    rw [lead, if_pos habs] at h
    cases h

theorem components_eq_steps {p : Path} (h : p.lead = none) : p.components = p.steps := by
  rw [components_eq, h]
  rfl

/-- Joining a path without a lead puts the components of both together. -/
theorem components_join_of_lead_eq_none (p : Path) {q : Path} (hq : q.lead = none) :
    (p.join q).components = p.components ++ q.components := by
  have habs := isAbsolute_of_lead_eq_none hq
  by_cases hp : p.text = ""
  · have hempty : p = ⟨""⟩ := by rw [← hp]
    have hnone : p.components = [] := by
      rw [hempty]
      rfl
    rw [join_of_text_eq_empty hp habs, hnone, List.nil_append]
  · rw [components_join hp habs, components_eq_steps hq]

/-! ## 4. Spelling -/

theorem steps_slashed {segs : List String} (h : ∀ s ∈ segs, '/' ∉ s.toList) :
    steps ⟨slashed segs⟩ = segs.filterMap component? := by
  cases segs with
  | nil => rfl
  | cons s rest => rw [steps, segments_slashed (List.cons_ne_nil s rest) h]

/-- A path that is spelled from segments has no lead, unless the first of them is trivial. -/
theorem lead_slashed {segs : List String} (h : ∀ s ∈ segs, '/' ∉ s.toList)
    (hhead : ∀ s ∈ segs.head?, isTrivial s = false) : lead ⟨slashed segs⟩ = none := by
  cases segs with
  | nil => rfl
  | cons s rest =>
    have hs : isTrivial s = false := hhead s rfl
    have hsegs := segments_slashed (List.cons_ne_nil s rest) h
    have habs : isAbsolute ⟨slashed (s :: rest)⟩ = false := by
      rcases text_cases ⟨slashed (s :: rest)⟩ with ⟨-, hempty⟩ | ⟨-, rest', hempty⟩ | ⟨hrel, -⟩
      · rw [hsegs] at hempty
        rw [(List.cons.inj hempty).1] at hs
        cases hs
      · rw [hsegs] at hempty
        rw [(List.cons.inj hempty).1] at hs
        cases hs
      · exact hrel
    have hhere : s ≠ "." := by
      rintro rfl
      cases hs
    rw [lead, habs, if_neg Bool.false_ne_true, hsegs, List.head?_cons,
      if_neg fun hsome => hhere (Option.some_inj.mp hsome)]

theorem slashed_append {segs segs' : List String} (h : segs ≠ []) (h' : segs' ≠ []) :
    slashed (segs ++ segs') = slashed segs ++ "/" ++ slashed segs' := by
  obtain ⟨first', rest', rfl⟩ := List.exists_cons_of_ne_nil h'
  induction segs with
  | nil => exact absurd rfl h
  | cons s segs ih =>
    cases segs with
    | nil =>
      rw [List.singleton_append, slashed, String.intercalate_cons_cons]
      rfl
    | cons s' segs =>
      have hrest := ih (List.cons_ne_nil s' segs)
      rw [slashed, slashed] at hrest
      rw [slashed, slashed, List.cons_append, List.cons_append, String.intercalate_cons_cons,
        String.intercalate_cons_cons, ← List.cons_append, hrest]
      simp only [String.append_assoc]

theorem spell_none (segs : List String) : spell none segs = ⟨slashed segs⟩ := rfl

theorem components_slashed {segs : List String} (h : ∀ s ∈ segs, '/' ∉ s.toList)
    (hhead : ∀ s ∈ segs.head?, isTrivial s = false) :
    components ⟨slashed segs⟩ = segs.filterMap component? := by
  rw [components_eq_steps (lead_slashed h hhead), steps_slashed h]

/-- A step's segment is not trivial. -/
theorem IsStep.not_isTrivial {c : Component} (h : IsStep c) : isTrivial c.segment = false := by
  rw [← Bool.not_eq_true, ← component?_eq_none_iff, h.1]
  exact Option.some_ne_none c

/-- Steps are spelled by their segments. -/
theorem lead_and_steps_slashed_segments {cs : List Component} (h : ∀ c ∈ cs, IsStep c) :
    lead ⟨slashed (cs.map Component.segment)⟩ = none ∧
      steps ⟨slashed (cs.map Component.segment)⟩ = cs := by
  have hslash : ∀ s ∈ cs.map Component.segment, '/' ∉ s.toList := by
    intro s hs
    obtain ⟨c, hc, rfl⟩ := List.mem_map.mp hs
    exact (h c hc).2
  have hhead : ∀ s ∈ (cs.map Component.segment).head?, isTrivial s = false := by
    intro s hs
    obtain ⟨c, hc, rfl⟩ := List.mem_map.mp (List.mem_of_mem_head? hs)
    exact (h c hc).not_isTrivial
  have hread : cs.filterMap (component? ∘ Component.segment) = cs.filterMap some :=
    List.filterMap_congr fun c hc => (h c hc).1
  refine ⟨lead_slashed hslash hhead, ?_⟩
  rw [steps_slashed hslash, List.filterMap_map, hread, List.filterMap_some]

theorem components_slashed_segments {cs : List Component} (h : ∀ c ∈ cs, IsStep c) :
    components ⟨slashed (cs.map Component.segment)⟩ = cs := by
  obtain ⟨hlead, hsteps⟩ := lead_and_steps_slashed_segments h
  rw [components_eq_steps hlead, hsteps]

/-- Behind a slash, steps are spelled by their segments as well. -/
theorem components_slash_slashed_segments {cs : List Component} (h : ∀ c ∈ cs, IsStep c) :
    components ⟨"/" ++ slashed (cs.map Component.segment)⟩ = .root :: cs := by
  have habs : isAbsolute ⟨"/" ++ slashed (cs.map Component.segment)⟩ = true := by
    simp [isAbsolute]
  have hsegs : segments ⟨"/" ++ slashed (cs.map Component.segment)⟩ =
      "" :: segments ⟨slashed (cs.map Component.segment)⟩ :=
    segments_append_slash "" (slashed (cs.map Component.segment))
  have hsteps : steps ⟨"/" ++ slashed (cs.map Component.segment)⟩ = cs := by
    rw [steps, hsegs, List.filterMap_cons_none rfl]
    exact (lead_and_steps_slashed_segments h).2
  rw [components_eq, lead, if_pos habs, hsteps]
  rfl

/-! ## 5. Cutting -/

theorem filterMap_takeBody (n : Nat) (segs : List String) :
    (takeBody n segs).filterMap component? = (segs.filterMap component?).take n := by
  induction segs generalizing n with
  | nil => cases n <;> rfl
  | cons s rest ih =>
    cases n with
    | zero => simp [takeBody]
    | succ n =>
      rw [takeBody]
      split
      · next hs =>
        have hnone := component?_eq_none_iff.mpr hs
        rw [List.filterMap_cons_none hnone, List.filterMap_cons_none hnone, ih]
      · next hs =>
        cases hc : component? s with
        | none => exact absurd (component?_eq_none_iff.mp hc) hs
        | some c =>
          rw [List.filterMap_cons_some hc, List.filterMap_cons_some hc, ih, List.take_succ_cons]

theorem filterMap_dropBody (n : Nat) (segs : List String) :
    (dropBody n segs).filterMap component? = (segs.filterMap component?).drop n := by
  induction segs generalizing n with
  | nil => cases n <;> rfl
  | cons s rest ih =>
    cases n with
    | zero => rfl
    | succ n =>
      rw [dropBody]
      split
      · next hs => rw [List.filterMap_cons_none (component?_eq_none_iff.mpr hs), ih]
      · next hs =>
        cases hc : component? s with
        | none => exact absurd (component?_eq_none_iff.mp hc) hs
        | some c => rw [List.filterMap_cons_some hc, ih, List.drop_succ_cons]

theorem filterMap_dropWhile_isTrivial (segs : List String) :
    (segs.dropWhile isTrivial).filterMap component? = segs.filterMap component? := by
  induction segs with
  | nil => rfl
  | cons s rest ih =>
    rw [List.dropWhile_cons]
    split
    · next hs => rw [ih, List.filterMap_cons_none (component?_eq_none_iff.mpr hs)]
    · rfl

theorem filterMap_trimBody (segs : List String) :
    (trimBody segs).filterMap component? = segs.filterMap component? := by
  rw [trimBody, List.filterMap_reverse, filterMap_dropWhile_isTrivial, List.filterMap_reverse,
    List.reverse_reverse]

theorem takeBody_prefix_self (n : Nat) (segs : List String) : takeBody n segs <+: segs := by
  induction segs generalizing n with
  | nil => cases n <;> exact List.nil_prefix
  | cons s rest ih =>
    cases n with
    | zero => exact List.nil_prefix
    | succ n =>
      rw [takeBody]
      split
      · exact (List.prefix_cons_inj s).mpr (ih (n + 1))
      · exact (List.prefix_cons_inj s).mpr (ih n)

theorem dropBody_suffix_self (n : Nat) (segs : List String) : dropBody n segs <:+ segs := by
  induction segs generalizing n with
  | nil => cases n <;> exact List.nil_suffix
  | cons s rest ih =>
    cases n with
    | zero => exact List.suffix_refl _
    | succ n =>
      rw [dropBody]
      split
      · exact (ih (n + 1)).trans (List.suffix_cons s rest)
      · exact (ih n).trans (List.suffix_cons s rest)

theorem trimBody_prefix_self (segs : List String) : trimBody segs <+: segs := by
  rw [trimBody, ← List.reverse_suffix, List.reverse_reverse]
  exact List.dropWhile_suffix _

/-- A beginning that is not empty begins with the same segment. -/
theorem mem_head?_of_beginning {segs segs' : List String} {s : String} (h : segs <+: segs')
    (hs : s ∈ segs.head?) : s ∈ segs'.head? := by
  obtain ⟨rest, rfl⟩ := h
  rw [Option.mem_def] at hs ⊢
  rw [List.head?_append, hs, Option.some_or]

theorem not_isTrivial_of_mem_head?_dropWhile {segs : List String} {s : String}
    (h : s ∈ (segs.dropWhile isTrivial).head?) : isTrivial s = false := by
  have hhead := List.head?_dropWhile_not isTrivial segs
  rwa [Option.mem_def.mp h] at hhead

theorem slash_not_mem_of_mem_body {p : Path} {s : String} (h : s ∈ p.body) : '/' ∉ s.toList := by
  rw [body] at h
  split at h
  · exact slash_not_mem_of_mem_segments h
  · exact slash_not_mem_of_mem_segments (List.mem_of_mem_tail h)

/-! ### Behind a directory -/

/-- What is left of a path behind its first components has no lead, and has the other components. -/
theorem lead_drop_and_components_drop (p : Path) {n : Nat} (hn : 0 < n) :
    (p.drop n).lead = none ∧ (p.drop n).components = p.components.drop n := by
  have hlead : p.lead.toList.length ≤ n := by
    cases p.lead with
    | none => exact Nat.zero_le n
    | some c => exact hn
  have hslash : ∀ s ∈ trimBody ((dropBody (n - p.lead.toList.length) p.body).dropWhile isTrivial),
      '/' ∉ s.toList := by
    intro s hs
    have hs := (List.dropWhile_suffix _).subset ((trimBody_prefix_self _).subset hs)
    exact slash_not_mem_of_mem_body ((dropBody_suffix_self _ _).subset hs)
  have hhead : ∀ s ∈
      (trimBody ((dropBody (n - p.lead.toList.length) p.body).dropWhile isTrivial)).head?,
      isTrivial s = false := fun s hs =>
    not_isTrivial_of_mem_head?_dropWhile (mem_head?_of_beginning (trimBody_prefix_self _) hs)
  rw [drop, if_neg (by omega), spell_none]
  refine ⟨lead_slashed hslash hhead, ?_⟩
  rw [components_slashed hslash hhead, filterMap_trimBody, filterMap_dropWhile_isTrivial,
    filterMap_dropBody, components, List.drop_append, List.drop_eq_nil_of_le hlead,
    List.nil_append]

/-- **A path relative to a directory has the components behind those of the directory.** -/
theorem relativeTo?_eq_some {p dir rest : Path} (hdir : dir.components ≠ [])
    (h : p.relativeTo? dir = some rest) :
    rest.lead = none ∧ p.components = dir.components ++ rest.components := by
  rw [relativeTo?, Option.ite_none_right_eq_some, List.isPrefixOf_iff_prefix] at h
  obtain ⟨hbelow, hrest⟩ := h
  obtain ⟨hlead, hcomponents⟩ :=
    p.lead_drop_and_components_drop (List.length_pos_of_ne_nil hdir)
  rw [← Option.some_inj.mp hrest]
  refine ⟨hlead, ?_⟩
  rw [hcomponents]
  exact (List.prefix_iff_eq_append.mp hbelow).symm

theorem relativeTo?_eq_none_iff {p dir : Path} :
    p.relativeTo? dir = none ↔ ¬ dir.components <+: p.components := by
  rw [relativeTo?, ite_eq_right_iff, ← List.isPrefixOf_iff_prefix]
  simp

/-- A path of names is written with slashes between them. -/
theorem slashNames_of_components {p : Path} {names : List String}
    (h : p.components = names.map .name) : p.slashNames = slashed names := by
  rw [slashNames, Path.names, h, List.filterMap_map]
  exact congrArg slashed List.filterMap_some

/-! ### Up to the empty path -/

/-- A path without a lead that is not empty begins with a component. -/
theorem not_isTrivial_of_mem_head?_segments {p : Path} (hlead : p.lead = none) (hp : p.text ≠ "")
    {s : String} (h : s ∈ p.segments.head?) : isTrivial s = false := by
  rw [lead] at hlead
  split at hlead
  · cases hlead
  · next habs =>
    rw [ite_eq_right_iff] at hlead
    rcases p.text_cases with ⟨hempty, -⟩ | ⟨hroot, -⟩ | ⟨-, -, s', rest, hsegs, hne⟩
    · exact absurd hempty hp
    · exact absurd hroot habs
    · rw [hsegs, List.head?_cons, Option.mem_some_iff] at h
      subst h
      have hhere : s' ≠ "." := by
        rintro rfl
        have := hlead (by rw [hsegs, List.head?_cons])
        cases this
      simp [isTrivial, hne, hhere]

/-- Cutting nothing off such a path leaves its components. -/
theorem components_drop_zero {p : Path} (hlead : p.lead = none) (hp : p.text ≠ "") :
    (p.drop 0).components = p.components := by
  have hbody : p.body = p.segments := by rw [body, hlead]
  have hslash : ∀ s ∈ trimBody p.segments, '/' ∉ s.toList := fun s hs =>
    slash_not_mem_of_mem_segments ((trimBody_prefix_self _).subset hs)
  have hhead : ∀ s ∈ (trimBody p.segments).head?, isTrivial s = false := fun s hs =>
    not_isTrivial_of_mem_head?_segments hlead hp
      (mem_head?_of_beginning (trimBody_prefix_self _) hs)
  rw [drop, if_pos rfl, hlead, hbody, spell_none, components_slashed hslash hhead,
    filterMap_trimBody, components_eq_steps hlead, steps]

/-- The beginnings of a list, longest first. -/
theorem map_take_range_eq_reverse_inits {α : Type} (cs : List α) :
    (List.range (cs.length + 1)).map (fun k => cs.take (cs.length - k)) = cs.inits.reverse := by
  apply List.ext_getElem
  · simp
  · intro k h₁ h₂
    rw [List.getElem_map, List.getElem_range, List.getElem_reverse, List.getElem_inits,
      List.length_inits]
    rfl

/-- The path of the first components of a path without a lead has none either. -/
theorem lead_take_and_components_take {p : Path} (hlead : p.lead = none) (hp : p.text ≠ "")
    (k : Nat) : (p.take k).lead = none ∧ (p.take k).components = p.components.take k := by
  have hbody : p.body = p.segments := by rw [body, hlead]
  have hslash : ∀ s ∈ takeBody k p.segments, '/' ∉ s.toList := fun s hs =>
    slash_not_mem_of_mem_segments ((takeBody_prefix_self _ _).subset hs)
  have hhead : ∀ s ∈ (takeBody k p.segments).head?, isTrivial s = false := fun s hs =>
    not_isTrivial_of_mem_head?_segments hlead hp
      (mem_head?_of_beginning (takeBody_prefix_self _ _) hs)
  have htake : p.take k = ⟨slashed (takeBody k p.segments)⟩ := by
    rw [take, hlead, hbody, cut, spell_none]
  rw [htake]
  refine ⟨lead_slashed hslash hhead, ?_⟩
  rw [components_slashed hslash hhead, filterMap_takeBody, components_eq_steps hlead, steps]

/-- The paths above a path without a lead, spelled out. -/
theorem ancestors_of_lead_eq_none {p : Path} (hlead : p.lead = none) :
    p.ancestors = p :: (List.range p.components.length).map
      fun k => p.take (p.components.length - 1 - k) := by
  have hfloor : p.floor = 0 := by
    rw [floor, isAbsolute_of_lead_eq_none hlead, if_neg Bool.false_ne_true]
  rw [ancestors_eq, hfloor, Nat.sub_zero]

theorem text_ne_empty_of_mem_range {p : Path} {k : Nat}
    (hk : k ∈ List.range p.components.length) : p.text ≠ "" := by
  intro hp
  have hlength : k < p.components.length := List.mem_range.mp hk
  have hempty : p = ⟨""⟩ := by rw [← hp]
  rw [hempty] at hlength
  exact absurd hlength (Nat.not_lt_zero k)

theorem lead_of_mem_ancestors {p q : Path} (hlead : p.lead = none) (hq : q ∈ p.ancestors) :
    q.lead = none := by
  rw [ancestors_of_lead_eq_none hlead] at hq
  rcases List.mem_cons.mp hq with rfl | hq
  · exact hlead
  · obtain ⟨k, hk, rfl⟩ := List.mem_map.mp hq
    exact (lead_take_and_components_take hlead (text_ne_empty_of_mem_range hk) _).1

/-- **A relative path and those above it are the beginnings of its components, longest first.** -/
theorem components_ancestors {p : Path} (hlead : p.lead = none) :
    p.ancestors.map components = p.components.inits.reverse := by
  rw [← map_take_range_eq_reverse_inits, ancestors_of_lead_eq_none hlead,
    List.range_succ_eq_map, List.map_cons, List.map_cons, Nat.sub_zero, List.take_length,
    List.map_map, List.map_map]
  refine congrArg (p.components :: ·) (List.map_congr_left fun k hk => ?_)
  have hcount : p.components.length - 1 - k = p.components.length - (k + 1) := by omega
  rw [Function.comp_apply, Function.comp_apply, hcount]
  exact (lead_take_and_components_take hlead (text_ne_empty_of_mem_range hk) _).2

theorem components_prefix_of_mem_ancestors {p q : Path} (hlead : p.lead = none)
    (hq : q ∈ p.ancestors) : q.components <+: p.components := by
  have hinits : q.components ∈ p.components.inits.reverse := by
    rw [← components_ancestors hlead]
    exact List.mem_map_of_mem hq
  exact (List.mem_inits _ _).mp (List.mem_reverse.mp hinits)

end GoResolver.Path
