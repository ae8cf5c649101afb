import GoResolver.Proofs.Path.Components

/-!
# Where a path leads when only its text is looked at

Without a disk a path still leads somewhere: each `..` takes back the name before it, and a path
without a root starts in the current directory (`resolved`).  This is the reading in which one asks
whether a path stays inside a directory.

* A path that is written as a directory with components behind it stays inside the directory, unless
  these components climb above where they start (`resolved_prefix_of_not_climbs`).  That it is
  written so is not enough.
* A path that was normalized has its `..`, if it has any, before every name
  (`settled_foldl_settle`), so behind a name nothing climbs (`not_climbs_of_components_normalize`).
-/

namespace GoResolver.Path

/-! ## 1. Resolving -/

/-- The place a component leads to, as names from the root. -/
def enter (place : List String) : Component → List String
  | .root => []
  | .here => place
  | .up => place.dropLast
  | .name s => place ++ [s]

/-- The place a path leads to from the current directory, by its components alone. -/
def resolved (cwd : List String) (p : Path) : List String := p.components.foldl enter cwd

/-- Whether components lead above the place where they start, on the way or at the end.  The number
says how far below that place one is already. -/
def climbs : Nat → List Component → Bool
  | _, [] => false
  | _, .root :: _ => true
  | depth, .here :: cs => climbs depth cs
  | 0, .up :: _ => true
  | depth + 1, .up :: cs => climbs depth cs
  | depth, .name _ :: cs => climbs (depth + 1) cs

/-- Components that do not climb lead to a place below the one where they start. -/
theorem prefix_foldl_enter_of_not_climbs {cs : List Component} (base below : List String)
    (h : climbs below.length cs = false) : base <+: cs.foldl enter (base ++ below) := by
  induction cs generalizing below with
  | nil => exact List.prefix_append base below
  | cons c cs ih =>
    rw [List.foldl_cons]
    cases c with
    | root => cases h
    | here => exact ih below h
    | up =>
      -- there is a name below the base to take back
      rcases List.eq_nil_or_concat below with rfl | ⟨front, last, rfl⟩
      · cases h
      · rw [List.concat_eq_append, List.length_append, List.length_singleton, climbs] at h
        rw [List.concat_eq_append, ← List.append_assoc, enter, List.dropLast_concat]
        exact ih front h
    | name s =>
      rw [climbs] at h
      rw [enter, List.append_assoc]
      refine ih (below ++ [s]) ?_
      rwa [List.length_append, List.length_singleton]

/-- **A path that is written behind a directory stays inside it, unless it climbs.** -/
theorem resolved_prefix_of_not_climbs {p dir : Path} {below : List Component} (cwd : List String)
    (hp : p.components = dir.components ++ below) (h : climbs 0 below = false) :
    dir.resolved cwd <+: p.resolved cwd := by
  have hbelow := prefix_foldl_enter_of_not_climbs (dir.resolved cwd) [] h
  rwa [List.append_nil, resolved, ← List.foldl_append, ← hp] at hbelow

/-- Names lead below. -/
theorem foldl_enter_names (place names : List String) :
    (names.map Component.name).foldl enter place = place ++ names := by
  induction names generalizing place with
  | nil => exact (List.append_nil place).symm
  | cons s names ih =>
    rw [List.map_cons, List.foldl_cons, ih, enter, List.append_assoc, List.singleton_append]

/-- Names do not climb. -/
theorem climbs_append_names (depth : Nat) (cs : List Component) (names : List String) :
    climbs depth (cs ++ names.map .name) = climbs depth cs := by
  induction cs generalizing depth with
  | nil =>
    induction names generalizing depth with
    | nil => rfl
    | cons s names ih => exact ih (depth + 1)
  | cons c cs ih =>
    cases c with
    | root => rfl
    | here => exact ih depth
    | up =>
      cases depth with
      | zero => rfl
      | succ depth => exact ih depth
    | name s => exact ih (depth + 1)

/-- Components that climb at first climb. -/
theorem climbs_of_prefix_of_climbs {depth : Nat} {cs cs' : List Component} (h : cs <+: cs')
    (hclimbs : climbs depth cs = true) : climbs depth cs' = true := by
  obtain ⟨rest, rfl⟩ := h
  induction cs generalizing depth with
  | nil => cases hclimbs
  | cons c cs ih =>
    cases c with
    | root => rfl
    | here => exact ih hclimbs
    | up =>
      cases depth with
      | zero => rfl
      | succ depth => exact ih hclimbs
    | name s => exact ih hclimbs

/-- Components that climb have a `..` before which they lead back to where they start. -/
theorem exists_up_of_climbs {cs : List Component} (hroot : .root ∉ cs) (below : List String)
    (h : climbs below.length cs = true) :
    ∃ front rest, cs = front ++ .up :: rest ∧ ∀ base, front.foldl enter (base ++ below) = base := by
  induction cs generalizing below with
  | nil => cases h
  | cons c cs ih =>
    rw [List.mem_cons, not_or] at hroot
    cases c with
    | root => exact absurd rfl hroot.1
    | here =>
      obtain ⟨front, rest, rfl, hback⟩ := ih hroot.2 below h
      exact ⟨.here :: front, rest, rfl, hback⟩
    | up =>
      rcases List.eq_nil_or_concat below with rfl | ⟨above, last, rfl⟩
      · exact ⟨[], cs, rfl, fun base => List.append_nil base⟩
      · rw [List.concat_eq_append, List.length_append, List.length_singleton, climbs] at h
        obtain ⟨front, rest, rfl, hback⟩ := ih hroot.2 above h
        refine ⟨.up :: front, rest, rfl, fun base => ?_⟩
        rw [List.foldl_cons, List.concat_eq_append, ← List.append_assoc, enter,
          List.dropLast_concat]
        exact hback base
    | name s =>
      obtain ⟨front, rest, rfl, hback⟩ := ih hroot.2 (below ++ [s])
        (by rwa [List.length_append, List.length_singleton])
      refine ⟨.name s :: front, rest, rfl, fun base => ?_⟩
      rw [List.foldl_cons, enter, List.append_assoc]
      exact hback base

/-- Steps without `..` are names. -/
theorem exists_steps_eq_names {p : Path} (hup : .up ∉ p.steps) :
    ∃ names : List String, p.steps = names.map .name := by
  have hnames : ∀ cs : List Component, (∀ c ∈ cs, IsStep c) → .up ∉ cs →
      ∃ names : List String, cs = names.map .name := by
    intro cs hcs hup
    induction cs with
    | nil => exact ⟨[], rfl⟩
    | cons c cs ih =>
      rw [List.mem_cons, not_or] at hup
      obtain ⟨names, rfl⟩ := ih (fun c' hc' => hcs c' (List.mem_cons_of_mem _ hc')) hup.2
      rcases (hcs c List.mem_cons_self).eq_up_or_name with rfl | ⟨s, rfl⟩
      · exact absurd rfl hup.1
      · exact ⟨s :: names, rfl⟩
  exact hnames p.steps (fun c hc => isStep_of_mem_steps hc) hup

/-- An absolute path without `..` leads to the names that it is written with. -/
theorem exists_names_of_isAbsolute {p : Path} (habs : p.isAbsolute = true)
    (hup : .up ∉ p.components) :
    ∃ names : List String, p.components = .root :: names.map .name ∧
      ∀ cwd, p.resolved cwd = names := by
  have hcomponents : p.components = .root :: p.steps := by
    rw [components_eq, isAbsolute_iff_lead_eq_root.mp habs]
    rfl
  rw [hcomponents, List.mem_cons, not_or] at hup
  obtain ⟨names, hnames⟩ := exists_steps_eq_names hup.2
  refine ⟨names, by rw [hcomponents, hnames], fun cwd => ?_⟩
  rw [resolved, hcomponents, hnames, List.foldl_cons, foldl_enter_names]
  rfl

/-- **Absolute paths without `..` that lead to the same place are spellings of one path.** -/
theorem same_of_resolved_eq {p p' : Path} (habs : p.isAbsolute = true)
    (habs' : p'.isAbsolute = true) (hup : .up ∉ p.components) (hup' : .up ∉ p'.components)
    (h : ∀ cwd, p.resolved cwd = p'.resolved cwd) : p.Same p' := by
  obtain ⟨names, hcomponents, hresolved⟩ := exists_names_of_isAbsolute habs hup
  obtain ⟨names', hcomponents', hresolved'⟩ := exists_names_of_isAbsolute habs' hup'
  have hnames : names = names' := by rw [← hresolved [], h, hresolved']
  rw [Same, hcomponents, hcomponents', hnames]

/-! ## 2. Normalized paths -/

/-- A stack of components, innermost first, in which nothing is left to resolve: names, and below
them at most one `..` and the root. -/
inductive Settled : List Component → Prop where
  | nil : Settled []
  | root : Settled [.root]
  | up : Settled [.up]
  | up_root : Settled [.up, .root]
  | name {s : String} {stack : List Component} (hs : IsStep (.name s)) (h : Settled stack) :
      Settled (.name s :: stack)

/-- Putting a step or a first `.` on a settled stack leaves it settled. -/
theorem Settled.settle {stack : List Component} (h : Settled stack) {c : Component}
    (hc : c = .here ∨ IsStep c) : Settled (settle stack c) := by
  rcases hc with rfl | hc
  · cases stack <;> exact h
  rcases hc.eq_up_or_name with rfl | ⟨s, rfl⟩
  · cases h with
    | nil => exact .up
    | root => exact .up_root
    | up => exact .nil
    | up_root => exact .root
    | name hs h => exact h
  · cases h with
    | nil => exact .name hc .nil
    | root => exact .name hc .root
    | up => exact .name hc .up
    | up_root => exact .name hc .up_root
    | name hs h => exact .name hc (.name hs h)

theorem Settled.foldl {stack : List Component} (h : Settled stack) {cs : List Component}
    (hcs : ∀ c ∈ cs, c = .here ∨ IsStep c) : Settled (cs.foldl Path.settle stack) := by
  induction cs generalizing stack with
  | nil => exact h
  | cons c cs ih =>
    exact ih (h.settle (hcs c List.mem_cons_self)) fun c' hc' =>
      hcs c' (List.mem_cons_of_mem _ hc')

/-- **Resolving a path settles its components.** -/
theorem settled_foldl_settle (p : Path) : Settled (p.components.foldl settle []) := by
  have hsteps : ∀ c ∈ p.steps, c = .here ∨ IsStep c := fun c hc => .inr (isStep_of_mem_steps hc)
  rw [components_eq, lead]
  split
  · exact Settled.root.foldl hsteps
  · split
    · exact Settled.nil.foldl (List.forall_mem_cons.mpr ⟨.inl rfl, hsteps⟩)
    · exact Settled.nil.foldl hsteps

/-- What lies on a name is a name. -/
theorem Settled.exists_name {c : Component} {stack : List Component} {s : String}
    (h : Settled (c :: stack)) (hs : .name s ∈ stack) : (∃ t, c = .name t) ∧ Settled stack := by
  cases h with
  | root => simp at hs
  | up => simp at hs
  | up_root => simp at hs
  | name _ h => exact ⟨⟨_, rfl⟩, h⟩

theorem Settled.exists_names {front back : List Component} {s : String}
    (h : Settled (front ++ .name s :: back)) : ∃ names : List String, front = names.map .name := by
  induction front with
  | nil => exact ⟨[], rfl⟩
  | cons c front ih =>
    obtain ⟨⟨t, rfl⟩, hrest⟩ := h.exists_name (List.mem_append_right front List.mem_cons_self)
    obtain ⟨names, rfl⟩ := ih hrest
    exact ⟨t :: names, rfl⟩

/-- A settled stack is made of steps, and the root may lie below them. -/
theorem Settled.exists_steps {stack : List Component} (h : Settled stack) :
    ∃ cs, (∀ c ∈ cs, IsStep c) ∧ (stack = cs ∨ stack = cs ++ [.root]) := by
  have hup : ∀ c ∈ [Component.up], IsStep c := by
    intro c hc
    rw [List.mem_singleton.mp hc]
    exact ⟨rfl, by decide⟩
  induction h with
  | nil => exact ⟨[], by simp, .inl rfl⟩
  | root => exact ⟨[], by simp, .inr rfl⟩
  | up => exact ⟨[.up], hup, .inl rfl⟩
  | up_root => exact ⟨[.up], hup, .inr rfl⟩
  | @name s stack hs _ ih =>
    obtain ⟨cs, hcs, hstack⟩ := ih
    refine ⟨.name s :: cs, List.forall_mem_cons.mpr ⟨hs, hcs⟩, ?_⟩
    rcases hstack with rfl | rfl
    · exact .inl rfl
    · exact .inr rfl

/-- **A normalized path has the settled components.** -/
theorem components_normalize (p : Path) :
    p.normalize.components = (p.components.foldl settle []).reverse := by
  obtain ⟨cs, hcs, hstack⟩ := (settled_foldl_settle p).exists_steps
  have hreverse : ∀ c ∈ cs.reverse, IsStep c := fun c hc => hcs c (List.mem_reverse.mp hc)
  rw [normalize]
  rcases hstack with hstack | hstack
  · have hspell : ofComponents cs.reverse = ⟨slashed (cs.reverse.map Component.segment)⟩ := by
      cases h : cs.reverse with
      | nil => rfl
      | cons c rest =>
        rw [h] at hreverse
        have hc := hreverse c List.mem_cons_self
        rcases hc.eq_up_or_name with rfl | ⟨s, rfl⟩
        · rfl
        · rfl
    rw [hstack, hspell, components_slashed_segments hreverse]
  · rw [hstack, List.reverse_append, List.reverse_singleton, List.singleton_append, ofComponents,
      components_slash_slashed_segments hreverse]

/-- Behind a name, a normalized path does not climb. -/
theorem not_climbs_of_components_normalize {p : Path} {above below : List Component} {s : String}
    (h : p.normalize.components = above ++ [.name s] ++ below) : climbs 0 below = false := by
  have hstack : p.components.foldl settle [] = below.reverse ++ .name s :: above.reverse := by
    rw [components_normalize] at h
    rw [← List.reverse_reverse (p.components.foldl settle []), h]
    simp
  have hsettled := settled_foldl_settle p
  rw [hstack] at hsettled
  obtain ⟨names, hnames⟩ := hsettled.exists_names
  have hbelow : below = [] ++ names.reverse.map .name := by
    rw [List.nil_append, List.map_reverse, ← hnames, List.reverse_reverse]
  rw [hbelow, climbs_append_names]
  rfl

end GoResolver.Path
