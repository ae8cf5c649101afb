import GoResolver.Proofs.Path.Resolution

/-!
# Where a normalized path leads

Normalizing resolves `.` and `..` on a stack, and the question is whether the normalized path still
leads where the path leads (`Path.resolved`).

Both are followed component by component.  After some steps a path has *risen* above the place where
it starts, by as many `..` as found no name to take back, and has then gone down by some names.  The
stack has the same names on it (`exists_foldl_settle`).  What it keeps of the rise is less: a `..`
that meets the bottom of the stack is put on it, and the next one takes it away again as if it were
a name.  So the stack remembers only whether the rise is odd.

* Above the root nothing can be lost, since the root is its own parent.  A path that starts in the
  current directory loses nothing while it rises by one at most.
* In all other cases the normalized path leads to another place, unless the current directory is so
  close to the root that both end there (`resolved_normalize_eq_iff`).
* A path that cancels to nothing is the empty path, although it leads to the current directory or to
  one above it (`resolved_prefix_of_normalize_eq_empty`).
-/

namespace GoResolver.Path

/-! ## 1. Rising and going down -/

/-- By how much components rise above the place where they start.  The first number says how far
below that place one is already. -/
def rise : Nat → List Component → Nat
  | _, [] => 0
  | _, .root :: cs => rise 0 cs
  | depth, .here :: cs => rise depth cs
  | 0, .up :: cs => rise 0 cs + 1
  | depth + 1, .up :: cs => rise depth cs
  | depth, .name _ :: cs => rise (depth + 1) cs

/-- By how much a path rises above the place where it starts. -/
def height (p : Path) : Nat := rise 0 p.steps

/-- The place that lies by a number of names above another, or the root. -/
def above (n : Nat) (place : List String) : List String := place.take (place.length - n)

@[simp] theorem above_zero (place : List String) : above 0 place = place :=
  List.take_length

theorem dropLast_above (n : Nat) (place : List String) :
    (above n place).dropLast = above (n + 1) place := by
  have hlength : min (place.length - n) place.length - 1 = place.length - (n + 1) := by omega
  rw [above, above, List.dropLast_eq_take, List.length_take, hlength, List.take_take]
  congr 1
  omega

theorem above_prefix (n : Nat) (place : List String) : above n place <+: place :=
  List.take_prefix _ place

/-- Two places above one place are the same when they are equally far below the root. -/
theorem above_eq_above_iff {m n : Nat} {place : List String} :
    above m place = above n place ↔ place.length - m = place.length - n := by
  constructor
  · intro h
    have hlength := congrArg List.length h
    rw [above, above, List.length_take, List.length_take] at hlength
    omega
  · intro h
    rw [above, above, h]

/-- The place where a path starts. -/
def startFrom (p : Path) (cwd : List String) : List String := if p.isAbsolute then [] else cwd

/-- A path leads from where it starts to where its steps lead. -/
theorem resolved_eq (p : Path) (cwd : List String) :
    p.resolved cwd = p.steps.foldl enter (p.startFrom cwd) := by
  rw [resolved, components_eq, startFrom]
  cases habs : p.isAbsolute with
  | true =>
    rw [isAbsolute_iff_lead_eq_root.mp habs]
    rfl
  | false =>
    rcases p.lead_cases with hlead | hlead | hlead
    · rw [hlead]
      rfl
    · rw [isAbsolute_iff_lead_eq_root.mpr hlead] at habs
      cases habs
    · rw [hlead]
      rfl

/-! ## 2. The stack -/

/-- A stack of components after a rise above a base and some names down. -/
def stackOf (base : List Component) (risen : Nat) (below : List String) : List Component :=
  (below.map Component.name).reverse ++ if risen % 2 = 1 then .up :: base else base

theorem settle_name (stack : List Component) (s : String) :
    settle stack (.name s) = .name s :: stack := by
  cases stack with
  | nil => rfl
  | cons c stack => cases c <;> rfl

/-- A name is put on the stack. -/
theorem settle_stackOf_name (base : List Component) (risen : Nat) (below : List String)
    (s : String) :
    settle (stackOf base risen below) (.name s) = stackOf base risen (below ++ [s]) := by
  rw [settle_name, stackOf, stackOf, List.map_append, List.reverse_append]
  rfl

/-- A `..` takes a name away. -/
theorem settle_stackOf_up (base : List Component) (risen : Nat) (below : List String)
    (s : String) :
    settle (stackOf base risen (below ++ [s])) .up = stackOf base risen below := by
  rw [stackOf, stackOf, List.map_append, List.reverse_append]
  rfl

/-- **At the bottom a `..` is put on the stack, or takes away the one that was put there.** -/
theorem settle_stackOf_nil_up {base : List Component} (hbase : base = [] ∨ base = [.root])
    (risen : Nat) : settle (stackOf base risen []) .up = stackOf base (risen + 1) [] := by
  rw [stackOf, stackOf]
  rcases Nat.mod_two_eq_zero_or_one risen with heven | hodd
  · have hnext : (risen + 1) % 2 = 1 := by omega
    rw [if_neg (by omega), if_pos hnext]
    rcases hbase with rfl | rfl <;> rfl
  · have hnext : ¬ (risen + 1) % 2 = 1 := by omega
    rw [if_pos hodd, if_neg hnext]
    rcases hbase with rfl | rfl <;> rfl

/-- **The stack and the place follow the same rise and the same names.** -/
theorem exists_foldl_settle {base : List Component} (hbase : base = [] ∨ base = [.root])
    {cs : List Component} (hcs : ∀ c ∈ cs, IsStep c) (risen : Nat) (below : List String) :
    ∃ below', cs.foldl settle (stackOf base risen below) =
        stackOf base (risen + rise below.length cs) below' ∧
      ∀ start, cs.foldl enter (above risen start ++ below) =
        above (risen + rise below.length cs) start ++ below' := by
  induction cs generalizing risen below with
  | nil => exact ⟨below, rfl, fun start => rfl⟩
  | cons c cs ih =>
    have hrest : ∀ c ∈ cs, IsStep c := fun c' hc' => hcs c' (List.mem_cons_of_mem _ hc')
    simp only [List.foldl_cons]
    rcases (hcs c List.mem_cons_self).eq_up_or_name with rfl | ⟨s, rfl⟩
    · rcases List.eq_nil_or_concat below with rfl | ⟨front, s, rfl⟩
      · -- there is no name to take back, so the path rises
        obtain ⟨below', hstack, hplace⟩ := ih hrest (risen + 1) []
        have hrise : risen + rise ([] : List String).length (.up :: cs) =
            risen + 1 + rise ([] : List String).length cs := by
          rw [List.length_nil, rise]
          omega
        refine ⟨below', ?_, fun start => ?_⟩
        · rw [settle_stackOf_nil_up hbase, hstack, hrise]
        · rw [hrise, ← hplace start, List.append_nil, List.append_nil, enter, dropLast_above]
      · rw [List.concat_eq_append]
        obtain ⟨below', hstack, hplace⟩ := ih hrest risen front
        have hrise : rise (front ++ [s]).length (.up :: cs) = rise front.length cs := by
          rw [List.length_append, List.length_singleton, rise]
        refine ⟨below', ?_, fun start => ?_⟩
        · rw [settle_stackOf_up, hstack, hrise]
        · rw [hrise, ← hplace start, ← List.append_assoc, enter, List.dropLast_concat]
    · obtain ⟨below', hstack, hplace⟩ := ih hrest risen (below ++ [s])
      have hrise : rise below.length (.name s :: cs) = rise (below ++ [s]).length cs := by
        rw [List.length_append, List.length_singleton, rise]
      refine ⟨below', ?_, fun start => ?_⟩
      · rw [settle_stackOf_name, hstack, hrise]
      · rw [hrise, ← hplace start, enter, List.append_assoc]

/-! ## 3. The normalized path -/

/-- The `..` that is left of a rise. -/
def oddUp (p : Path) : List Component := if p.height % 2 = 1 then [.up] else []

/-- What a normalized path has before its names. -/
def rest (p : Path) : List Component := (if p.isAbsolute then [.root] else []) ++ p.oddUp

/-- **A normalized path keeps the names that a path goes down by, and of its rise whether it is
odd.** -/
theorem exists_components_normalize (p : Path) :
    ∃ below : List String, p.normalize.components = p.rest ++ below.map .name ∧
      ∀ cwd, p.resolved cwd = above p.height (p.startFrom cwd) ++ below := by
  have hsteps : ∀ c ∈ p.steps, IsStep c := fun c hc => isStep_of_mem_steps hc
  have hlead : ∃ base : List Component, (base = [] ∨ base = [.root]) ∧
      base = (if p.isAbsolute then [.root] else []) ∧
      p.components.foldl settle [] = p.steps.foldl settle (stackOf base 0 []) := by
    rw [components_eq, List.foldl_append]
    cases habs : p.isAbsolute with
    | true =>
      refine ⟨[.root], .inr rfl, rfl, ?_⟩
      rw [isAbsolute_iff_lead_eq_root.mp habs]
      rfl
    | false =>
      refine ⟨[], .inl rfl, rfl, ?_⟩
      rcases p.lead_cases with hlead | hlead | hlead
      · rw [hlead]
        rfl
      · rw [isAbsolute_iff_lead_eq_root.mpr hlead] at habs
        cases habs
      · rw [hlead]
        rfl
  obtain ⟨base, hbase, hroot, hstack⟩ := hlead
  obtain ⟨below, hsettled, hplace⟩ := exists_foldl_settle hbase hsteps 0 []
  have hheight : 0 + rise ([] : List String).length p.steps = p.height := by
    rw [Nat.zero_add]
    rfl
  rw [hheight] at hsettled hplace
  refine ⟨below, ?_, fun cwd => ?_⟩
  · rw [components_normalize, hstack, hsettled, stackOf, rest, oddUp, ← hroot,
      List.reverse_append, List.reverse_reverse]
    rcases hbase with rfl | rfl <;> split <;> rfl
  · rw [resolved_eq, ← hplace (p.startFrom cwd), above_zero, List.append_nil]

/-- A normalized path starts where the path starts. -/
theorem isAbsolute_and_steps_normalize {p : Path} {below : List String}
    (h : p.normalize.components = p.rest ++ below.map .name) :
    p.normalize.isAbsolute = p.isAbsolute ∧ p.normalize.steps = p.oddUp ++ below.map .name := by
  have hsteps : ∀ c ∈ p.oddUp ++ below.map .name, c ≠ .root ∧ c ≠ .here := by
    intro c hc
    rcases List.mem_append.mp hc with hup | hname
    · rw [oddUp] at hup
      split at hup
      · simp [List.mem_singleton.mp hup]
      · cases hup
    · obtain ⟨s, -, rfl⟩ := List.mem_map.mp hname
      simp
  rw [rest, List.append_assoc] at h
  cases habs : p.isAbsolute with
  | true =>
    rw [habs, if_pos rfl] at h
    obtain ⟨hlead, hsteps⟩ := lead_and_steps_of_components_eq (.inr rfl) hsteps h
    exact ⟨isAbsolute_iff_lead_eq_root.mpr hlead, hsteps⟩
  | false =>
    rw [habs, if_neg Bool.false_ne_true] at h
    obtain ⟨hlead, hsteps⟩ := lead_and_steps_of_components_eq (.inl rfl) hsteps h
    exact ⟨isAbsolute_of_lead_eq_none hlead, hsteps⟩

/-- Where a normalized path leads: of the rise, one step up is left or none. -/
theorem resolved_of_components_normalize {p : Path} {below : List String}
    (h : p.normalize.components = p.rest ++ below.map .name) (cwd : List String) :
    p.normalize.resolved cwd = above (p.height % 2) (p.startFrom cwd) ++ below := by
  have hrest : p.rest.foldl enter cwd = above (p.height % 2) (p.startFrom cwd) := by
    rw [rest, oddUp, startFrom]
    rcases Nat.mod_two_eq_zero_or_one p.height with heven | hodd
    · rw [heven, above_zero, if_neg Nat.zero_ne_one, List.append_nil]
      split <;> rfl
    · rw [hodd, if_pos rfl, ← dropLast_above 0, above_zero]
      split <;> rfl
  rw [resolved, h, List.foldl_append, hrest, foldl_enter_names]

/-- **When a normalized path leads where the path leads.** -/
theorem resolved_normalize_eq_iff (p : Path) (cwd : List String) :
    p.normalize.resolved cwd = p.resolved cwd ↔
      p.isAbsolute = true ∨ p.height ≤ 1 ∨ cwd.length ≤ p.height % 2 := by
  obtain ⟨below, hcomponents, hresolved⟩ := p.exists_components_normalize
  rw [resolved_of_components_normalize hcomponents, hresolved, List.append_left_inj,
    above_eq_above_iff, startFrom]
  cases p.isAbsolute with
  | true => simp
  | false =>
    have hmod : p.height % 2 ≤ 1 := by omega
    simp only [Bool.false_eq_true, if_false, false_or]
    omega

/-- **A path that cancels to nothing leads to the current directory, or to one above it.** -/
theorem resolved_prefix_of_normalize_eq_empty {p : Path} (h : p.normalize.components = [])
    (cwd : List String) : p.resolved cwd <+: cwd := by
  obtain ⟨below, hcomponents, hresolved⟩ := p.exists_components_normalize
  rw [hcomponents, List.append_eq_nil_iff, List.map_eq_nil_iff] at h
  obtain ⟨hrest, rfl⟩ := h
  have habs : p.isAbsolute = false := by
    cases habs : p.isAbsolute with
    | false => rfl
    | true =>
      rw [rest, habs, if_pos rfl] at hrest
      cases hrest
  rw [hresolved, List.append_nil, startFrom, habs, if_neg Bool.false_ne_true]
  exact above_prefix _ cwd

end GoResolver.Path
