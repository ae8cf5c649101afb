import GoResolver.GoContext.FileName
import GoResolver.Proofs.GoContext.Tags
import Mathlib.Data.List.Basic

/-!
# File names and tags ask for the same targets

A file can be kept to a target in two ways: by the last elements of its name, and by tags in its
header.  The two are read by different code.  A name is cut at its underscores and compared with the
target's system and architecture; a tag goes through a chain of tests, of which these two come
first.  `isBuildableName_agrees` says that they mean the same: a name asks for the tags that it ends
in, and a name that ends in none asks for nothing.

## The last element

Everything depends on how a stem ends.  A stem without an underscore asks for nothing.  Any other is
`front ++ "_" ++ last` with no underscore in `last`, in exactly one way, and cutting it leaves
`last` behind the elements of `front` (`isBuildableName_concat`).  So there is no induction on the
elements: what stands before the last two never matters, and neither does the one before the first
underscore.

That a known word is read as a tag only by the first tests needs the other tests to pass it by: it
is not reserved, and it is not configured as a tag (`satisfies_of_plain`).
-/

namespace GoResolver

/-! ## 1. The last piece of a text -/

/-- A text with a separator in it has a last piece. -/
theorem Text.exists_last_piece {sep : Char} {s : List Char} (h : sep ∈ s) :
    ∃ front last, s = front ++ sep :: last ∧ sep ∉ last := by
  obtain ⟨last, front, hs, hlast⟩ := List.eq_append_cons_of_mem (List.mem_reverse.mpr h)
  refine ⟨front.reverse, last.reverse, ?_, by simpa using hlast⟩
  rw [← List.reverse_reverse s, hs, List.reverse_append, List.reverse_cons, List.append_assoc,
    List.singleton_append]

/-- There is only one last piece. -/
theorem Text.last_piece_unique {sep : Char} {front front' last last' : List Char}
    (h : front ++ sep :: last = front' ++ sep :: last') (hlast : sep ∉ last)
    (hlast' : sep ∉ last') : last = last' := by
  have hpieces := congrArg (Text.pieces sep) h
  rw [Text.pieces_append_sep_append, Text.pieces_append_sep_append, Text.pieces_of_not_mem hlast,
    Text.pieces_of_not_mem hlast'] at hpieces
  exact (List.cons.inj (List.append_inj' hpieces rfl).2).1

namespace GoContext

/-! ## 2. Names that are considered -/

/-- A text that the name of a considered file starts with: there is something before its ending, and
neither an underscore nor a dot hides it. -/
structure IsStart (x : String) : Prop where
  ne_empty : x ≠ ""
  not_underscore : x.toList.head? ≠ some '_'
  not_dot : x.toList.head? ≠ some '.'

instance (x : String) : Decidable (IsStart x) :=
  decidable_of_iff (x ≠ "" ∧ x.toList.head? ≠ some '_' ∧ x.toList.head? ≠ some '.')
    ⟨fun h => ⟨h.1, h.2.1, h.2.2⟩, fun h => ⟨h.ne_empty, h.not_underscore, h.not_dot⟩⟩

/-- A text starts as the first part of it does. -/
theorem isStart_append_iff {x y : String} (hx : x ≠ "") : IsStart (x ++ y) ↔ IsStart x := by
  have hne : x.toList ≠ [] := by simpa using hx
  have hhead : (x ++ y).toList.head? = x.toList.head? := by
    rw [String.toList_append, List.head?_append_of_ne_nil _ hne]
  constructor
  · rintro ⟨-, hunderscore, hdot⟩
    exact ⟨hx, hhead ▸ hunderscore, hhead ▸ hdot⟩
  · rintro ⟨-, hunderscore, hdot⟩
    refine ⟨fun h => hne ?_, hhead ▸ hunderscore, hhead ▸ hdot⟩
    have hempty : x.toList ++ y.toList = [] := by rw [← String.toList_append, h]; rfl
    exact (List.append_eq_nil_iff.mp hempty).1

variable {ctx : GoContext}

/-- The stem of a considered file is all that stands before the ending of its name. -/
theorem stem?_eq_some {stem : String} (hstart : IsStart stem)
    (htest : ¬ ∃ x, stem = x ++ "_test") : stem? (stem ++ ".go") = some stem.toList := by
  have hbefore : Text.before? ".go".toList (stem ++ ".go").toList = some stem.toList := by
    rw [Text.before?_eq_some_iff, String.toList_append]
  have hnotest : Text.before? "_test".toList stem.toList = none := by
    rw [Option.eq_none_iff_forall_ne_some]
    intro r hr
    rw [Text.before?_eq_some_iff] at hr
    refine htest ⟨String.ofList r, ?_⟩
    rw [← String.toList_inj, String.toList_append, String.toList_ofList, hr]
  have hnonempty : stem.toList.isEmpty = false := by simpa using hstart.ne_empty
  rw [stem?, hbefore]
  dsimp only
  rw [hnotest, hnonempty, if_neg]
  simpa using ⟨hstart.not_underscore, hstart.not_dot⟩

/-- **The elements that a name is judged by**, last first: what stands behind its last underscore,
and then the elements before that, without the first. -/
theorem isBuildableName_concat (ctx : GoContext) {x last : String} (hx : IsStart x)
    (hlast : '_' ∉ last.toList) (htest : last ≠ "test") :
    ctx.isBuildableName (x ++ "_" ++ last ++ ".go") =
      ctx.matchesQualifiers
        (last :: ((Text.pieces '_' x.toList).tail.map String.ofList).reverse) := by
  have hstart : IsStart (x ++ "_" ++ last) := by
    rw [String.append_assoc]
    exact (isStart_append_iff hx.ne_empty).mpr hx
  have hlist : (x ++ "_" ++ last).toList = x.toList ++ '_' :: last.toList := by simp
  have hnotest : ¬ ∃ y, x ++ "_" ++ last = y ++ "_test" := by
    rintro ⟨y, hy⟩
    have hpieces : x.toList ++ '_' :: last.toList = y.toList ++ '_' :: "test".toList := by
      rw [← hlist, hy, String.toList_append]
      rfl
    exact htest (String.toList_inj.mp (Text.last_piece_unique hpieces hlast (by decide)))
  obtain ⟨first, rest, hfirst⟩ := List.exists_cons_of_ne_nil (Text.pieces_ne_nil '_' x.toList)
  have hqualifiers : qualifiers? (x ++ "_" ++ last).toList =
      some (rest.map String.ofList ++ [last]) := by
    rw [hlist, qualifiers?, Text.pieces_append_sep_append, Text.pieces_of_not_mem hlast, hfirst]
    cases rest with
    | nil => simp
    | cons second rest => simp
  rw [isBuildableName, stem?_eq_some hstart hnotest]
  dsimp only
  rw [hqualifiers]
  dsimp only
  rw [List.reverse_append, hfirst]
  rfl

/-- A name without an underscore asks for nothing. -/
theorem isBuildableName_of_no_underscore (ctx : GoContext) {stem : String} (hstart : IsStart stem)
    (h : '_' ∉ stem.toList) : ctx.isBuildableName (stem ++ ".go") = true := by
  have hnotest : ¬ ∃ y, stem = y ++ "_test" := by
    rintro ⟨y, rfl⟩
    exact h (by simp)
  have hqualifiers : qualifiers? stem.toList = none := by
    rw [qualifiers?, Text.pieces_of_not_mem h]
  rw [isBuildableName, stem?_eq_some hstart hnotest]
  dsimp only
  rw [hqualifiers]

/-! ## 3. Known words -/

/-- No word is known as a system and as an architecture. -/
theorem not_architecture_of_system {o : String} (h : o ∈ knownSystems) :
    o ∉ knownArchitectures := by
  revert o
  decide

/-- A known word is one element, and it has no meaning of its own, neither in a name nor as a
tag. -/
theorem plain_of_known {w : String} (h : w ∈ knownSystems ∨ w ∈ knownArchitectures) :
    '_' ∉ w.toList ∧ w ≠ "test" ∧ w ≠ "gc" ∧ ¬ IsReserved w := by
  rw [← List.mem_append] at h
  revert w
  decide

/-- The names by which a system goes besides its own are names of systems. -/
theorem mem_knownSystems_of_matchesSystem {name : String} (hgoos : ctx.goos ∈ knownSystems)
    (h : ctx.matchesSystem name = true) : name ∈ knownSystems := by
  have hknown : "linux" ∈ knownSystems ∧ "solaris" ∈ knownSystems ∧ "darwin" ∈ knownSystems := by
    decide
  rw [matchesSystem] at h
  simp only [Bool.or_eq_true, Bool.and_eq_true, beq_iff_eq] at h
  rcases h with ((rfl | ⟨rfl, -⟩) | ⟨rfl, -⟩) | ⟨rfl, -⟩
  · exact hgoos
  · exact hknown.1
  · exact hknown.2.1
  · exact hknown.2.2

/-- A tag without a meaning of its own holds when it names the target's system or architecture, or
when it is configured. -/
theorem satisfies_of_plain (ctx : GoContext) {w : String} (hgc : w ≠ "gc")
    (hreserved : ¬ IsReserved w) :
    ctx.satisfies w =
      (ctx.matchesSystem w || w == ctx.goarch || ctx.buildTags.contains w) := by
  have hgrants : ¬ ctx.Grants w := fun h => hreserved h.isReserved
  rw [Bool.eq_iff_iff, satisfies_iff, NamesTarget]
  simp [hgc, hreserved, hgrants, or_assoc]

/-- A context whose target is one of the known ones, and whose configured tags are no names of
targets. -/
structure IsTargeted (ctx : GoContext) : Prop where
  goos_mem : ctx.goos ∈ knownSystems
  goarch_mem : ctx.goarch ∈ knownArchitectures
  tags : ∀ tag ∈ ctx.buildTags, tag ∉ knownSystems ∧ tag ∉ knownArchitectures

/-- As a tag, a system's name asks for the system. -/
theorem satisfies_of_system (h : ctx.IsTargeted) {o : String} (ho : o ∈ knownSystems) :
    ctx.satisfies o = ctx.matchesSystem o := by
  obtain ⟨-, -, hgc, hreserved⟩ := plain_of_known (.inl ho)
  have harch : (o == ctx.goarch) = false := by
    rw [beq_eq_false_iff_ne]
    rintro rfl
    exact not_architecture_of_system ho h.goarch_mem
  have htags : ctx.buildTags.contains o = false := by
    simpa using fun hmem => (h.tags o hmem).1 ho
  rw [satisfies_of_plain ctx hgc hreserved, harch, htags, Bool.or_false, Bool.or_false]

/-- As a tag, an architecture's name asks for the architecture. -/
theorem satisfies_of_architecture (h : ctx.IsTargeted) {a : String} (ha : a ∈ knownArchitectures) :
    ctx.satisfies a = (a == ctx.goarch) := by
  obtain ⟨-, -, hgc, hreserved⟩ := plain_of_known (.inr ha)
  have hsystem : ctx.matchesSystem a = false := by
    rw [← Bool.not_eq_true]
    intro hmatches
    exact not_architecture_of_system (mem_knownSystems_of_matchesSystem h.goos_mem hmatches) ha
  have htags : ctx.buildTags.contains a = false := by
    simpa using fun hmem => (h.tags a hmem).2 ha
  rw [satisfies_of_plain ctx hgc hreserved, hsystem, htags, Bool.false_or, Bool.or_false]

/-! ## 4. What the last elements ask for -/

/-- A system in the last place. -/
theorem matchesQualifiers_of_system (ctx : GoContext) {o : String} (ho : o ∈ knownSystems)
    (rest : List String) : ctx.matchesQualifiers (o :: rest) = ctx.matchesSystem o := by
  have hsystem : knownSystems.contains o = true := List.contains_iff_mem.mpr ho
  have harch : knownArchitectures.contains o = false := by
    simpa using not_architecture_of_system ho
  cases rest with
  | nil => rw [matchesQualifiers, matchesQualifiers.matchesLast, if_pos hsystem]
  | cons s rest =>
    rw [matchesQualifiers, harch, Bool.and_false, if_neg Bool.false_ne_true,
      matchesQualifiers.matchesLast, if_pos hsystem]

/-- A system and behind it an architecture. -/
theorem matchesQualifiers_of_both (ctx : GoContext) {o a : String} (ho : o ∈ knownSystems)
    (ha : a ∈ knownArchitectures) (rest : List String) :
    ctx.matchesQualifiers (a :: o :: rest) = (ctx.matchesSystem o && a == ctx.goarch) := by
  have hboth : (knownSystems.contains o && knownArchitectures.contains a) = true := by
    rw [Bool.and_eq_true, List.contains_iff_mem, List.contains_iff_mem]
    exact ⟨ho, ha⟩
  rw [matchesQualifiers, if_pos hboth]

/-- An architecture in the last place, with no system before it. -/
theorem matchesQualifiers_of_architecture (ctx : GoContext) {a : String}
    (ha : a ∈ knownArchitectures) {rest : List String}
    (hrest : ∀ s ∈ rest.head?, s ∉ knownSystems) :
    ctx.matchesQualifiers (a :: rest) = (a == ctx.goarch) := by
  have hsystem : knownSystems.contains a = false := by
    rw [← Bool.not_eq_true, List.contains_iff_mem]
    exact fun h => not_architecture_of_system h ha
  have harch : knownArchitectures.contains a = true := List.contains_iff_mem.mpr ha
  have hlast : matchesQualifiers.matchesLast ctx a = (a == ctx.goarch) := by
    rw [matchesQualifiers.matchesLast, hsystem, if_neg Bool.false_ne_true, if_pos harch]
  cases rest with
  | nil => rw [matchesQualifiers, hlast]
  | cons s rest =>
    have hs : knownSystems.contains s = false := by simpa using hrest s rfl
    rw [matchesQualifiers, hs, Bool.false_and, if_neg Bool.false_ne_true, hlast]

/-- An unknown word in the last place. -/
theorem matchesQualifiers_of_unknown (ctx : GoContext) {w : String} (hsystem : w ∉ knownSystems)
    (harch : w ∉ knownArchitectures) (rest : List String) :
    ctx.matchesQualifiers (w :: rest) = true := by
  have hsystem' : knownSystems.contains w = false := by simpa using hsystem
  have harch' : knownArchitectures.contains w = false := by simpa using harch
  have hlast : matchesQualifiers.matchesLast ctx w = true := by
    rw [matchesQualifiers.matchesLast, hsystem', harch', if_neg Bool.false_ne_true,
      if_neg Bool.false_ne_true]
  cases rest with
  | nil => rw [matchesQualifiers, hlast]
  | cons s rest =>
    rw [matchesQualifiers, harch', Bool.and_false, if_neg Bool.false_ne_true, hlast]

/-! ## 5. Agreement -/

/-- A name that ends in a system and an architecture asks for both tags. -/
theorem isBuildableName_of_both (h : ctx.IsTargeted) {x o a : String} (hx : IsStart x)
    (ho : o ∈ knownSystems) (ha : a ∈ knownArchitectures) :
    ctx.isBuildableName (x ++ "_" ++ o ++ "_" ++ a ++ ".go") =
      (ctx.satisfies o && ctx.satisfies a) := by
  have hstart : IsStart (x ++ "_" ++ o) := by
    rw [String.append_assoc]
    exact (isStart_append_iff hx.ne_empty).mpr hx
  obtain ⟨hone, -⟩ := plain_of_known (.inl ho)
  obtain ⟨hone', htest', -⟩ := plain_of_known (.inr ha)
  have hlist : (x ++ "_" ++ o).toList = x.toList ++ '_' :: o.toList := by simp
  have hpieces : ((Text.pieces '_' (x ++ "_" ++ o).toList).tail.map String.ofList).reverse =
      o :: ((Text.pieces '_' x.toList).tail.map String.ofList).reverse := by
    rw [hlist, Text.pieces_append_sep_append, Text.pieces_of_not_mem hone,
      List.tail_append_of_ne_nil (Text.pieces_ne_nil '_' x.toList)]
    simp
  rw [isBuildableName_concat ctx hstart hone' htest', hpieces, matchesQualifiers_of_both ctx ho ha,
    satisfies_of_system h ho, satisfies_of_architecture h ha]

/-- A name that ends in a system asks for its tag. -/
theorem isBuildableName_of_system (h : ctx.IsTargeted) {x o : String} (hx : IsStart x)
    (ho : o ∈ knownSystems) :
    ctx.isBuildableName (x ++ "_" ++ o ++ ".go") = ctx.satisfies o := by
  obtain ⟨hone, htest, -⟩ := plain_of_known (.inl ho)
  rw [isBuildableName_concat ctx hx hone htest, matchesQualifiers_of_system ctx ho,
    satisfies_of_system h ho]

/-- A name that ends in an architecture, with no system before it, asks for its tag. -/
theorem isBuildableName_of_architecture (h : ctx.IsTargeted) {x a : String} (hx : IsStart x)
    (ha : a ∈ knownArchitectures)
    (hsystem : ¬ ∃ x' o, o ∈ knownSystems ∧ x = x' ++ "_" ++ o) :
    ctx.isBuildableName (x ++ "_" ++ a ++ ".go") = ctx.satisfies a := by
  obtain ⟨hone, htest, -⟩ := plain_of_known (.inr ha)
  have hbefore : ∀ s ∈ ((Text.pieces '_' x.toList).tail.map String.ofList).reverse.head?,
      s ∉ knownSystems := by
    by_cases hmem : '_' ∈ x.toList
    · obtain ⟨front, last, hsplit, hlast⟩ := Text.exists_last_piece hmem
      rw [hsplit, Text.pieces_append_sep_append, Text.pieces_of_not_mem hlast,
        List.tail_append_of_ne_nil (Text.pieces_ne_nil '_' front)]
      intro s hs hknown
      have hs' : s = String.ofList last := by simpa [eq_comm] using hs
      refine hsystem ⟨String.ofList front, s, hknown, ?_⟩
      rw [← String.toList_inj, hs', hsplit]
      simp
    · rw [Text.pieces_of_not_mem hmem]
      simp
  rw [isBuildableName_concat ctx hx hone htest, matchesQualifiers_of_architecture ctx ha hbefore,
    satisfies_of_architecture h ha]

/-- A name that ends in no known word builds for every target. -/
theorem isBuildableName_of_other (ctx : GoContext) {stem : String} (hstart : IsStart stem)
    (htest : ¬ ∃ x, stem = x ++ "_test")
    (hother : ¬ ∃ x w, IsStart x ∧ (w ∈ knownSystems ∨ w ∈ knownArchitectures) ∧
      stem = x ++ "_" ++ w) :
    ctx.isBuildableName (stem ++ ".go") = true := by
  by_cases hmem : '_' ∈ stem.toList
  · obtain ⟨front, last, hsplit, hlast⟩ := Text.exists_last_piece hmem
    have hstem : stem = String.ofList front ++ "_" ++ String.ofList last := by
      rw [← String.toList_inj, hsplit]
      simp
    -- the stem starts with a letter that it shows, so there is something before the last element
    have hfront : String.ofList front ≠ "" := by
      intro hempty
      have hnil : front = [] := by simpa using hempty
      refine hstart.not_underscore ?_
      rw [hsplit, hnil]
      rfl
    have hx : IsStart (String.ofList front) := by
      rw [hstem, String.append_assoc] at hstart
      exact (isStart_append_iff hfront).mp hstart
    have hunknown : ¬ (String.ofList last ∈ knownSystems ∨
        String.ofList last ∈ knownArchitectures) := fun h => hother ⟨_, _, hx, h, hstem⟩
    rw [not_or] at hunknown
    have htest' : String.ofList last ≠ "test" := by
      intro h
      refine htest ⟨String.ofList front, ?_⟩
      rw [hstem, h, String.append_assoc]
      rfl
    rw [hstem, isBuildableName_concat ctx hx (by simpa using hlast) htest',
      matchesQualifiers_of_unknown ctx hunknown.1 hunknown.2]
  · exact isBuildableName_of_no_underscore ctx hstart hmem

/-- **File names ask for what tags ask for.**  Let the target be a known one, and let no tag be
configured that names a target.  A name that ends in a system and an architecture builds when both
tags hold; one that ends in a system, or in an architecture with no system before it, builds when
that tag holds.  Whatever the target is, every other name of a considered file builds, and so what
stands before the first underscore asks for nothing. -/
theorem isBuildableName_agrees (ctx : GoContext) :
    (ctx.goos ∈ knownSystems → ctx.goarch ∈ knownArchitectures →
      (∀ tag ∈ ctx.buildTags, tag ∉ knownSystems ∧ tag ∉ knownArchitectures) →
      ∀ x, IsStart x → ∀ o ∈ knownSystems, ∀ a ∈ knownArchitectures,
        ctx.isBuildableName (x ++ "_" ++ o ++ "_" ++ a ++ ".go") =
          (ctx.satisfies o && ctx.satisfies a) ∧
        ctx.isBuildableName (x ++ "_" ++ o ++ ".go") = ctx.satisfies o ∧
        ((¬ ∃ x' o', o' ∈ knownSystems ∧ x = x' ++ "_" ++ o') →
          ctx.isBuildableName (x ++ "_" ++ a ++ ".go") = ctx.satisfies a)) ∧
    ∀ stem, IsStart stem → (¬ ∃ x, stem = x ++ "_test") →
      (¬ ∃ x w, IsStart x ∧ (w ∈ knownSystems ∨ w ∈ knownArchitectures) ∧
        stem = x ++ "_" ++ w) →
      ctx.isBuildableName (stem ++ ".go") = true := by
  constructor
  · intro hgoos hgoarch htags x hx o ho a ha
    have h : ctx.IsTargeted := ⟨hgoos, hgoarch, htags⟩
    exact ⟨isBuildableName_of_both h hx ho ha, isBuildableName_of_system h hx ho,
      isBuildableName_of_architecture h hx ha⟩
  · intro stem hstart htest hother
    exact isBuildableName_of_other ctx hstart htest hother

/-- On `android`, which also goes by the name of `linux`: a name may ask for either, an architecture
before the last elements asks for nothing, and a name that only starts with a system builds. -/
theorem isBuildableName_agrees_on_android :
    let ctx : GoContext := { goos := "android", goarch := "arm64", buildTags := ["integration"] }
    ctx.isBuildableName "poll_386_linux_arm64.go" =
      (ctx.satisfies "linux" && ctx.satisfies "arm64") ∧
    ctx.isBuildableName "poll_386_linux.go" = ctx.satisfies "linux" ∧
    ctx.isBuildableName "poll_386_arm64.go" = ctx.satisfies "arm64" ∧
    ctx.satisfies "linux" = true ∧ ctx.isBuildableName "windows_poll.go" = true := by
  intro ctx
  have hgoos : ctx.goos ∈ knownSystems := by decide
  have hgoarch : ctx.goarch ∈ knownArchitectures := by decide
  have htags : ∀ tag ∈ ctx.buildTags, tag ∉ knownSystems ∧ tag ∉ knownArchitectures := by
    decide
  have hlinux : "linux" ∈ knownSystems := by decide
  have harm : "arm64" ∈ knownArchitectures := by decide
  have hends : ∀ {s x w : String}, s = x ++ "_" ++ w → ("_" ++ w).toList <:+ s.toList := by
    rintro s x w rfl
    exact ⟨x.toList, by simp⟩
  have hsystem : ¬ ∃ x o, o ∈ knownSystems ∧ "poll_386" = x ++ "_" ++ o := by
    rintro ⟨x, o, ho, h⟩
    have hnone : ∀ o ∈ knownSystems, ¬ ("_" ++ o).toList <:+ "poll_386".toList := by decide
    exact hnone o ho (hends h)
  have hother : ¬ ∃ x w, IsStart x ∧ (w ∈ knownSystems ∨ w ∈ knownArchitectures) ∧
      "windows_poll" = x ++ "_" ++ w := by
    rintro ⟨x, w, -, hw, h⟩
    have hnone : ∀ w ∈ knownSystems ++ knownArchitectures,
        ¬ ("_" ++ w).toList <:+ "windows_poll".toList := by decide
    exact hnone w (List.mem_append.mpr hw) (hends h)
  have htest : ¬ ∃ x, "windows_poll" = x ++ "_test" := by
    rintro ⟨x, h⟩
    have hnone : ¬ "_test".toList <:+ "windows_poll".toList := by decide
    exact hnone ⟨x.toList, by rw [h, String.toList_append]⟩
  obtain ⟨htargets, hothers⟩ := isBuildableName_agrees ctx
  obtain ⟨hboth, ho, ha⟩ := htargets hgoos hgoarch htags "poll_386" (by decide) "linux"
    hlinux "arm64" harm
  exact ⟨hboth, ho, ha hsystem, by decide,
    hothers "windows_poll" (by decide) htest hother⟩

end GoContext

end GoResolver
