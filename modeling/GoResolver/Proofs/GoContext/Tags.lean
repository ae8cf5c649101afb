import GoResolver.Proofs.Constraint.Printing
import GoResolver.Proofs.GoContext.Search
import GoResolver.Proofs.Text.Numbers

/-!
# Which tags hold

`satisfies` puts a row of questions to a tag, and the first that applies decides:

1. a tag that names the target holds (`NamesTarget`);
2. `unix`, `cgo` and the tags that start with `go1.` are *reserved*: each of them has a rule of its
   own, and this rule decides, whichever way;
3. any other tag holds when it is configured.

`satisfies_iff` says this once, and nothing after it looks into the chain of tests again.

## How far configuring a tag goes

The configured tags come last.  So configuring a tag makes it hold, unless it is reserved and its
rule says no (`Denies`); then it does not hold, and neither do the files that ask for it and for
nothing else (`satisfies_of_configured`, `not_all_configured_hold`).
-/

namespace GoResolver

/-! ## 1. Headers with one constraint -/

namespace Constraint

/-- Whether a line of a header states something. -/
def Line.states : Line → Bool
  | .goBuild _ => true
  | .plusBuild body => !body.isEmpty
  | .blank | .comment | .code => false

/-- Lines that state nothing make no difference. -/
theorem stated_filter_states (read : List Constraint) (lines : List Line) :
    stated read (lines.filter Line.states) = stated read lines := by
  induction lines generalizing read with
  | nil => rfl
  | cons line lines ih =>
    cases line with
    | goBuild e => rfl
    | blank | comment | code => exact ih read
    | plusBuild body =>
      by_cases hempty : body.isEmpty
      · have hnone : (Line.plusBuild body).states = false := by simp [Line.states, hempty]
        rw [List.filter_cons_of_neg (by simp [hnone]), ih, stated, if_pos hempty]
      · have hsome : (Line.plusBuild body).states = true := by simp [Line.states, hempty]
        rw [List.filter_cons_of_pos hsome, stated, stated, if_neg hempty, if_neg hempty]
        cases ofPlusLine? body with
        | some c => exact ih (read ++ [c])
        | none => rfl

/-- Whether the only line of a source's header that states something is a `//go:build` line with the
given tag. -/
def AsksOnlyFor (source tag : String) : Prop :=
  (header source).filter Line.states = [.goBuild tag.toList]

/-- A tag is read as itself. -/
theorem parse?_tag {tag : String} (htag : isTagText tag.toList = true) :
    parse? tag.toList = some (.tag tag) := by
  have hnil : Token.scan [] = some [] := by rw [Token.scan]
  have hscan : Token.scan tag.toList = some [.tag tag] := by
    have hends : Token.Ends [] := fun c hc => by cases hc
    have hread := Token.scan_tag_append htag hends
    rwa [List.append_nil, hnil] at hread
  exact parse?_eq_some_of_tokens (.one (.one (.tag tag))) hscan (Nat.zero_le _)

/-- **Such a source has the tag for its constraint.** -/
theorem ofSource_of_asksOnlyFor {source tag : String} (htag : isTagText tag.toList = true)
    (h : AsksOnlyFor source tag) : ofSource source = .ok (some (.tag tag)) := by
  rw [ofSource_eq, ← stated_filter_states, h, stated, ofExpression, parse?_tag htag]

end Constraint

namespace GoContext

variable {ctx : GoContext} {tag : String}

/-! ## 2. The questions put to a tag -/

/-- Whether a tag names the target: its system, its architecture, or the compiler. -/
def NamesTarget (ctx : GoContext) (tag : String) : Prop :=
  ctx.matchesSystem tag = true ∨ tag = ctx.goarch ∨ tag = "gc"

instance (ctx : GoContext) (tag : String) : Decidable (ctx.NamesTarget tag) :=
  inferInstanceAs (Decidable (_ ∨ _ ∨ _))

/-- Whether a tag is written as the tag of a release: `go1.` and a numeral, which may stand behind a
plus sign. -/
def SpellsRelease (tag : String) (k : Nat) : Prop :=
  ∃ plus numeral, (plus = [] ∨ plus = ['+']) ∧ Text.IsNumeral numeral k ∧
    tag.toList = "go1.".toList ++ (plus ++ numeral)

/-- Whether a tag names a release up to the context's own.  Numbers of more than 32 bits name none.
-/
def NamesRelease (ctx : GoContext) (tag : String) : Prop :=
  ∃ k, SpellsRelease tag k ∧ 1 ≤ k ∧ k ≤ ctx.release ∧ k < Text.word32Limit

/-- The tags that have a rule of their own. -/
def IsReserved (tag : String) : Prop :=
  tag = "unix" ∨ tag = "cgo" ∨ "go1.".toList <+: tag.toList

instance (tag : String) : Decidable (IsReserved tag) := inferInstanceAs (Decidable (_ ∨ _ ∨ _))

/-- Whether the rule of a reserved tag says yes. -/
def Grants (ctx : GoContext) (tag : String) : Prop :=
  (tag = "unix" ∧ ctx.goos ∈ unixSystems) ∨ (tag = "cgo" ∧ ctx.cgoEnabled = true) ∨
    ctx.NamesRelease tag

theorem SpellsRelease.prefix_tag {k : Nat} (h : SpellsRelease tag k) :
    "go1.".toList <+: tag.toList := by
  obtain ⟨plus, numeral, -, -, htag⟩ := h
  exact ⟨_, htag.symm⟩

theorem NamesRelease.prefix_tag (h : ctx.NamesRelease tag) : "go1.".toList <+: tag.toList := by
  obtain ⟨k, hspells, -⟩ := h
  exact hspells.prefix_tag

/-- Only reserved tags have a rule. -/
theorem Grants.isReserved (h : ctx.Grants tag) : IsReserved tag := by
  rcases h with ⟨hunix, -⟩ | ⟨hcgo, -⟩ | hrelease
  · exact .inl hunix
  · exact .inr (.inl hcgo)
  · exact .inr (.inr hrelease.prefix_tag)

/-- A tag names a release when what stands behind `go1.` is read as its number. -/
theorem namesRelease_iff {minor : List Char} (hminor : tag.toList = "go1.".toList ++ minor) :
    ctx.NamesRelease tag ↔ ∃ k, Text.word32? minor = some k ∧ 1 ≤ k ∧ k ≤ ctx.release := by
  have hspells : ∀ k, SpellsRelease tag k ∧ k < Text.word32Limit ↔ Text.word32? minor = some k := by
    intro k
    rw [Text.word32?_eq_some_iff, and_comm]
    refine and_congr_right fun _ => exists_congr fun plus => exists_congr fun numeral => ?_
    rw [hminor, List.append_right_inj, and_comm (a := Text.IsNumeral numeral k)]
  refine exists_congr fun k => ?_
  rw [← hspells k]
  constructor
  · rintro ⟨h, hone, hle, hlimit⟩
    exact ⟨⟨h, hlimit⟩, hone, hle⟩
  · rintro ⟨⟨h, hlimit⟩, hone, hle⟩
    exact ⟨h, hone, hle, hlimit⟩

/-- **The questions put to a tag, in order.**  A tag that names the target holds; a reserved one
holds when its rule says so; any other holds when it is configured. -/
theorem satisfies_iff :
    ctx.satisfies tag = true ↔
      ctx.NamesTarget tag ∨ ctx.Grants tag ∨ (¬ IsReserved tag ∧ tag ∈ ctx.buildTags) := by
  have hnames : (ctx.matchesSystem tag || tag == ctx.goarch || tag == "gc") = true ↔
      ctx.NamesTarget tag := by
    rw [NamesTarget, Bool.or_eq_true, Bool.or_eq_true, beq_iff_eq, beq_iff_eq, or_assoc]
  rw [satisfies]
  by_cases htarget : (ctx.matchesSystem tag || tag == ctx.goarch || tag == "gc") = true
  · rw [if_pos htarget]
    exact iff_of_true rfl (.inl (hnames.mp htarget))
  rw [if_neg htarget, or_iff_right (fun h => htarget (hnames.mpr h))]
  -- `unix` and `cgo` are no releases, so of the rules only their own can say yes
  by_cases hunix : tag = "unix"
  · subst hunix
    have hrelease : ¬ ctx.NamesRelease "unix" := fun h => absurd h.prefix_tag (by decide)
    simp [Grants, hrelease, IsReserved]
  rw [if_neg hunix]
  by_cases hcgo : tag = "cgo"
  · subst hcgo
    have hrelease : ¬ ctx.NamesRelease "cgo" := fun h => absurd h.prefix_tag (by decide)
    simp [Grants, hrelease, IsReserved]
  rw [if_neg hcgo]
  cases hafter : Text.after? "go1.".toList tag.toList with
  | some minor =>
    have hminor := Text.after?_eq_some_iff.mp hafter
    have hreserved : IsReserved tag := .inr (.inr ⟨minor, hminor.symm⟩)
    have hgrants : ctx.Grants tag ↔ ctx.NamesRelease tag := by simp [Grants, hunix, hcgo]
    rw [or_iff_left (fun h => h.1 hreserved), hgrants, namesRelease_iff hminor]
    dsimp only
    cases Text.word32? minor <;> simp
  | none =>
    have hreserved : ¬ IsReserved tag := by
      rintro (h | h | ⟨minor, hminor⟩)
      · exact hunix h
      · exact hcgo h
      · rw [Text.after?_eq_some_iff.mpr hminor.symm] at hafter
        cases hafter
    rw [or_iff_right (fun h : ctx.Grants tag => hreserved h.isReserved),
      and_iff_right hreserved]
    exact List.contains_iff_mem

/-! ## 3. Configured tags -/

/-- Whether the rule of a reserved tag says no. -/
def Denies (ctx : GoContext) (tag : String) : Prop := IsReserved tag ∧ ¬ ctx.Grants tag

/-- **A configured tag holds, unless it is denied.** -/
theorem satisfies_iff_of_configured (h : tag ∈ ctx.buildTags) :
    ctx.satisfies tag = true ↔ ctx.NamesTarget tag ∨ ¬ ctx.Denies tag := by
  rw [satisfies_iff, Denies]
  by_cases hreserved : IsReserved tag
  · simp [hreserved]
  · simp [hreserved, h]

/-- A file that asks for one tag builds when the tag holds. -/
theorem builds_iff_of_asksOnlyFor {name source : String} (hname : ctx.isBuildableName name = true)
    (htag : Constraint.isTagText tag.toList = true) (h : Constraint.AsksOnlyFor source tag) :
    ctx.Builds name source ↔ ctx.satisfies tag = true := by
  rw [Builds, Constraint.ofSource_of_asksOnlyFor htag h]
  simp [hname]

/-- **Configured tags hold, unless they are denied**, and so do the files that ask for one of them
and for nothing else. -/
theorem satisfies_of_configured (h : tag ∈ ctx.buildTags) :
    (ctx.satisfies tag = true ↔ ctx.NamesTarget tag ∨ ¬ ctx.Denies tag) ∧
    ∀ name source, ctx.isBuildableName name = true → Constraint.isTagText tag.toList = true →
      Constraint.AsksOnlyFor source tag →
      (ctx.Builds name source ↔ ctx.NamesTarget tag ∨ ¬ ctx.Denies tag) := by
  refine ⟨satisfies_iff_of_configured h, fun name source hname htag hasks => ?_⟩
  rw [builds_iff_of_asksOnlyFor hname htag hasks, satisfies_iff_of_configured h]

/-- A file asks, below a comment, for a configured tag that no rule reserves, and builds. -/
theorem satisfies_of_configured_integration :
    let ctx : GoContext := { goos := "windows", buildTags := ["go1.99", "integration"] }
    ctx.satisfies "integration" = true ∧
      ctx.Builds "x.go" "// About x.\n//go:build integration\n\npackage x\n" := by
  intro ctx
  have hmem : "integration" ∈ ctx.buildTags := by decide
  have hplain : ctx.NamesTarget "integration" ∨ ¬ ctx.Denies "integration" :=
    .inr fun hdenies => absurd hdenies.1 (by decide)
  have hasks : Constraint.AsksOnlyFor "// About x.\n//go:build integration\n\npackage x\n"
      "integration" := by
    unfold Constraint.AsksOnlyFor
    decide +kernel
  obtain ⟨hholds, hbuilds⟩ := satisfies_of_configured hmem
  exact ⟨hholds.mpr hplain, (hbuilds "x.go" _ (by decide) (by decide) hasks).mpr hplain⟩

/-- The reserved tags are denied on a target that has none of them, configured or not, and a file
that asks for one does not build. -/
theorem not_all_configured_hold :
    let ctx : GoContext :=
      { goos := "windows", cgoEnabled := false, release := 21,
        buildTags := ["unix", "cgo", "go1.99", "integration"] }
    (∀ tag ∈ ["unix", "cgo", "go1.99"], tag ∈ ctx.buildTags ∧ ctx.satisfies tag = false) ∧
      Constraint.AsksOnlyFor "//go:build go1.99\n\npackage x\n" "go1.99" ∧
      ¬ ctx.Builds "x.go" "//go:build go1.99\n\npackage x\n" := by
  intro ctx
  have hasks : Constraint.AsksOnlyFor "//go:build go1.99\n\npackage x\n" "go1.99" := by
    unfold Constraint.AsksOnlyFor
    decide +kernel
  refine ⟨by decide, hasks, ?_⟩
  rw [builds_iff_of_asksOnlyFor (by decide) (by decide) hasks]
  decide

end GoContext

end GoResolver
