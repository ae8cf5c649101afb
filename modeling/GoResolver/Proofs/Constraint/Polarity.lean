import GoResolver.Constraint.Basic
import Mathlib.Algebra.Group.Nat.Even

/-!
# What a constraint gains and loses with its tags

Without `!`, a constraint only gains from tags: it stays true when more of them hold.  Each `!`
turns this around for what stands under it.  So what matters of a tag is under how many `!` it is
mentioned (`mentions`), and of that number only whether it is even.

`Favours` says of two assignments that no mention is worse off in the second: the tags under an even
number of `!` have only been gained, the others only been lost.  `holds_of_favours` is the one
induction: a constraint that is true in the first assignment is true in the second.  It is stated
for any two assignments because a `!` exchanges their roles.
-/

namespace GoResolver.Constraint

/-! ## 1. Mentions -/

mutual

/-- The tags that a constraint mentions, in order, each with the number of `!` it stands under. -/
def mentions : Constraint → List (String × Nat)
  | .tag name => [(name, 0)]
  | .not term => (mentions term).map fun m => (m.1, m.2 + 1)
  | .all terms => mentionsIn terms
  | .any terms => mentionsIn terms

/-- The tags that the constraints of a list mention. -/
def mentionsIn : List Constraint → List (String × Nat)
  | [] => []
  | c :: cs => mentions c ++ mentionsIn cs

end

theorem mem_mentions_not {c : Constraint} {name : String} {n : Nat}
    (h : (name, n) ∈ c.mentions) : (name, n + 1) ∈ (Constraint.not c).mentions := by
  rw [mentions]
  exact List.mem_map_of_mem h

/-! ## 2. From one assignment to another -/

/-- Of the tags mentioned, those under an even number of `!` are only gained from one assignment to
the other, and those under an odd number are only lost. -/
def Favours (s s' : String → Bool) (ms : List (String × Nat)) : Prop :=
  ∀ m ∈ ms, (Even m.2 → s m.1 = true → s' m.1 = true) ∧
    (¬ Even m.2 → s' m.1 = true → s m.1 = true)

variable {s s' : String → Bool}

theorem favours_append {ms ms' : List (String × Nat)} :
    Favours s s' (ms ++ ms') ↔ Favours s s' ms ∧ Favours s s' ms' :=
  List.forall_mem_append

/-- A `!` exchanges the assignments. -/
theorem Favours.of_not {c : Constraint} (h : Favours s s' (Constraint.not c).mentions) :
    Favours s' s c.mentions := by
  rintro ⟨name, n⟩ hmem
  obtain ⟨heven, hodd⟩ := h (name, n + 1) (mem_mentions_not hmem)
  rw [Nat.even_add_one, not_not] at hodd
  rw [Nat.even_add_one] at heven
  exact ⟨hodd, heven⟩

mutual

/-- **A true constraint stays true where all of its mentions are favoured.** -/
theorem holds_of_favours : ∀ (c : Constraint) (s s' : String → Bool),
    Favours s s' c.mentions → c.holds s = true → c.holds s' = true
  | .tag name, s, s', h, hholds => by
    rw [holds_tag] at hholds ⊢
    exact (h (name, 0) (by rw [mentions]; exact List.mem_singleton_self _)).1 Even.zero hholds
  | .not c, s, s', h, hholds => by
    rw [holds_not, Bool.not_eq_true', ← Bool.not_eq_true] at hholds ⊢
    exact fun hc => hholds (holds_of_favours c s' s h.of_not hc)
  | .all cs, s, s', h, hholds => by
    rw [mentions] at h
    rw [holds] at hholds ⊢
    exact holdAll_of_favours cs s s' h hholds
  | .any cs, s, s', h, hholds => by
    rw [mentions] at h
    rw [holds] at hholds ⊢
    exact holdAny_of_favours cs s s' h hholds

theorem holdAll_of_favours : ∀ (cs : List Constraint) (s s' : String → Bool),
    Favours s s' (mentionsIn cs) → holdAll s cs = true → holdAll s' cs = true
  | [], _, _, _, _ => by rw [holdAll]
  | c :: cs, s, s', h, hholds => by
    rw [mentionsIn, favours_append] at h
    rw [holdAll, Bool.and_eq_true] at hholds ⊢
    exact ⟨holds_of_favours c s s' h.1 hholds.1, holdAll_of_favours cs s s' h.2 hholds.2⟩

theorem holdAny_of_favours : ∀ (cs : List Constraint) (s s' : String → Bool),
    Favours s s' (mentionsIn cs) → holdAny s cs = true → holdAny s' cs = true
  | [], s, _, _, hholds => by
    rw [holdAny] at hholds
    cases hholds
  | c :: cs, s, s', h, hholds => by
    rw [mentionsIn, favours_append] at h
    rw [holdAny, Bool.or_eq_true] at hholds ⊢
    exact hholds.imp (holds_of_favours c s s' h.1) (holdAny_of_favours cs s s' h.2)

end

/-- When tags are only gained, a constraint profits that mentions each gained one under an even
number of `!`. -/
theorem favours_of_gained (hgained : ∀ tag, s tag = true → s' tag = true)
    {ms : List (String × Nat)} (heven : ∀ m ∈ ms, s m.1 ≠ s' m.1 → Even m.2) :
    Favours s s' ms := by
  intro m hmem
  refine ⟨fun _ => hgained m.1, fun hodd hs' => ?_⟩
  have hsame : s m.1 = s' m.1 := by
    by_contra hne
    exact hodd (heven m hmem hne)
  rw [hsame, hs']

end GoResolver.Constraint
