import GoResolver.Proofs.Constraint.Polarity
import GoResolver.Proofs.GoContext.Tags

/-!
# More tags and a later release

Adding build tags and raising the release only makes more tags hold (`satisfies_of_growsTo`).  Files
may ask for the absence of a tag, so a package can still be lost in this way; but not by a file that
mentions the tags in question under an even number of `!` only.  `nothing_lost` follows such files
through all levels: their constraints, the files, a look through a directory, and the search for a
package.

## What a directory needs

Of the files in a directory only those are of interest that can be read and whose name builds, and
each of them has to mention the new tags evenly.  A file that cannot be read does no harm: which
files these are depends on their names alone, and so a look that got past one, or ended before it,
does so again.
-/

namespace GoResolver.GoContext

/-! ## 1. Growing contexts -/

/-- A context becomes another by adding build tags, raising the release, or both. -/
structure GrowsTo (A B : GoContext) : Prop where
  eq_update : B = { A with buildTags := B.buildTags, release := B.release }
  tags_subset : A.buildTags ⊆ B.buildTags
  release_le : A.release ≤ B.release

variable {A B : GoContext}

/-- Names of files ask for the target only. -/
theorem GrowsTo.isBuildableName_eq (h : A.GrowsTo B) :
    B.isBuildableName = A.isBuildableName := by
  rw [h.eq_update]
  rfl

/-- Where an import path leads does not depend on tags. -/
theorem GrowsTo.target_eq (h : A.GrowsTo B) : B.target = A.target := by
  rw [h.eq_update]
  rfl

/-- The rule of a reserved tag goes on saying yes. -/
theorem Grants.of_growsTo (h : A.GrowsTo B) {tag : String} (hgrants : A.Grants tag) :
    B.Grants tag := by
  have hgoos : B.goos = A.goos := by rw [h.eq_update]
  have hcgoEnabled : B.cgoEnabled = A.cgoEnabled := by rw [h.eq_update]
  rcases hgrants with ⟨hunix, hmem⟩ | ⟨hcgo, henabled⟩ | ⟨k, hspells, hone, hle, hlimit⟩
  · exact .inl ⟨hunix, by rwa [hgoos]⟩
  · exact .inr (.inl ⟨hcgo, by rwa [hcgoEnabled]⟩)
  · exact .inr (.inr ⟨k, hspells, hone, hle.trans h.release_le, hlimit⟩)

/-- **No tag is lost.** -/
theorem satisfies_of_growsTo (h : A.GrowsTo B) {tag : String} (htag : A.satisfies tag = true) :
    B.satisfies tag = true := by
  have htarget : B.NamesTarget tag ↔ A.NamesTarget tag := by
    rw [h.eq_update]
    rfl
  rw [satisfies_iff] at htag ⊢
  rcases htag with hnames | hgrants | ⟨hfree, hmem⟩
  · exact .inl (htarget.mpr hnames)
  · exact .inr (.inl (hgrants.of_growsTo h))
  · exact .inr (.inr ⟨hfree, h.tags_subset hmem⟩)

/-! ## 2. Files -/

/-- The constraint mentions each tag that two contexts disagree on under an even number of `!`
only. -/
def MentionsEvenly (A B : GoContext) (c : Constraint) : Prop :=
  ∀ m ∈ c.mentions, A.satisfies m.1 ≠ B.satisfies m.1 → Even m.2

/-- A constraint that mentions the new tags evenly stays true. -/
theorem holds_of_growsTo (h : A.GrowsTo B) {c : Constraint} (heven : A.MentionsEvenly B c)
    (hholds : c.holds A.satisfies = true) : c.holds B.satisfies = true :=
  Constraint.holds_of_favours c A.satisfies B.satisfies
    (Constraint.favours_of_gained (fun _ => satisfies_of_growsTo h) heven) hholds

/-- The constraint of a source text, if it has one, mentions the new tags evenly. -/
def AsksEvenly (A B : GoContext) (source : String) : Prop :=
  ∀ c, Constraint.ofSource source = .ok (some c) → A.MentionsEvenly B c

/-- A file that mentions the new tags evenly still builds. -/
theorem builds_of_growsTo (h : A.GrowsTo B) {name source : String}
    (heven : A.AsksEvenly B source) (hbuilds : A.Builds name source) : B.Builds name source := by
  obtain ⟨hname, hsource⟩ := hbuilds
  refine ⟨by rw [h.isBuildableName_eq, hname], ?_⟩
  rcases hsource with hnone | ⟨c, hc, hholds⟩
  · exact .inl hnone
  · exact .inr ⟨c, hc, holds_of_growsTo h (heven c hc) hholds⟩

/-! ## 3. Directories -/

variable {files : FileTree} {dir : Path}

/-- Of the names in a directory, those that build and are of files which can be read are of files
that mention the new tags evenly. -/
def AllAskEvenly (A B : GoContext) (files : FileTree) (dir : Path) (names : List String) : Prop :=
  ∀ name ∈ names, A.isBuildableName name = true → ∀ source,
    files.readText (dir.child name) = .ok source → A.AsksEvenly B source

theorem buildsAt_of_growsTo (h : A.GrowsTo B) {names : List String}
    (heven : A.AllAskEvenly B files dir names) {name : String} (hmem : name ∈ names)
    (hbuilds : A.BuildsAt files dir name) : B.BuildsAt files dir name := by
  obtain ⟨source, hread, hsource⟩ := hbuilds
  exact ⟨source, hread, builds_of_growsTo h (heven name hmem hsource.1 source hread) hsource⟩

/-- Which files cannot be read is the same in both contexts. -/
theorem unreadableAt_iff_of_growsTo (h : A.GrowsTo B) (name : String) :
    B.UnreadableAt files dir name ↔ A.UnreadableAt files dir name := by
  rw [UnreadableAt, UnreadableAt, h.isBuildableName_eq]

/-- **A look through a directory that finds a file finds one again**, when all of its files mention
the new tags evenly. -/
theorem verdict_examine_of_growsTo (h : A.GrowsTo B) {names : List String}
    (heven : A.AllAskEvenly B files dir names)
    (hfound : (A.examine files dir names).verdict = .ok true) :
    (B.examine files dir names).verdict = .ok true := by
  induction names with
  | nil => cases hfound
  | cons name names ih =>
    by_cases hbuilds : B.BuildsAt files dir name
    · exact verdict_examine_of_buildsAt hbuilds names
    -- a file that builds in neither context is passed by both
    have hbuildsA : ¬ A.BuildsAt files dir name := fun hA =>
      hbuilds (buildsAt_of_growsTo h heven List.mem_cons_self hA)
    have hreadable : ¬ A.UnreadableAt files dir name := by
      intro hunreadable
      obtain ⟨e, -, hverdict⟩ := verdict_examine_of_unreadableAt hunreadable names
      rw [hverdict] at hfound
      cases hfound
    rw [verdict_examine_of_passed hbuildsA hreadable] at hfound
    rw [verdict_examine_of_passed hbuilds
      fun hunreadable => hreadable ((unreadableAt_iff_of_growsTo h name).mp hunreadable)]
    exact ih (fun name' hmem => heven name' (List.mem_cons_of_mem _ hmem)) hfound

/-- A location is accepted when its directory can be listed and a file in it builds. -/
theorem result_accept_eq_ok_iff {ctx : GoContext} {path : String} {l l' : Location} :
    (ctx.accept files path l).result = .ok l' ↔ l = l' ∧ ∃ entries, files.list l.dir = .ok entries ∧
      (ctx.examine files l.dir (entries.map Prod.fst)).verdict = .ok true := by
  rw [accept]
  cases files.list l.dir with
  | error e => simp
  | ok entries =>
    dsimp only
    split <;> simp_all

/-! ## 4. What is not lost -/

/-- **Nothing is lost by more tags or a later release**, as far as the tags in question are
mentioned under an even number of `!` only: no tag, no constraint, no file, no directory with a file
that builds, and no place of an import path. -/
theorem nothing_lost (h : A.GrowsTo B) :
    (∀ tag, A.satisfies tag = true → B.satisfies tag = true) ∧
    (∀ c, A.MentionsEvenly B c → c.holds A.satisfies = true → c.holds B.satisfies = true) ∧
    (∀ name source, A.AsksEvenly B source → A.Builds name source → B.Builds name source) ∧
    ∀ files,
      (∀ dir names, A.AllAskEvenly B files dir names →
        (A.examine files dir names).verdict = .ok true →
        (B.examine files dir names).verdict = .ok true) ∧
      ∀ path sourceDir l, (A.locate files path sourceDir).result = .ok l →
        (∀ entries, files.list l.dir = .ok entries →
          A.AllAskEvenly B files l.dir (entries.map Prod.fst)) →
        (B.locate files path sourceDir).result = .ok l := by
  refine ⟨fun _ => satisfies_of_growsTo h, fun _ => holds_of_growsTo h,
    fun _ _ => builds_of_growsTo h, fun files =>
      ⟨fun _ _ => verdict_examine_of_growsTo h, fun path sourceDir l hfound heven => ?_⟩⟩
  rw [locate] at hfound ⊢
  split at hfound
  · cases hfound
  · rw [h.target_eq]
    split at hfound
    · cases hfound
    · next location htarget =>
      rw [result_accept_eq_ok_iff] at hfound ⊢
      obtain ⟨rfl, entries, hlist, hverdict⟩ := hfound
      exact ⟨rfl, entries, hlist, verdict_examine_of_growsTo h (heven entries hlist) hverdict⟩

/-- A workspace with one package, of one file. -/
def workspaceOf (source : String) : FileTree where
  cwd := []
  root := .dir [("ws", .dir [("src", .dir [("app", .dir [("app.go", .file (.text source))])])])]

/-- A source with a tag and a release under two `!` each, and another tag under one. -/
def negatedTwice : String := "//go:build !(!integration && !go1.26) || !windows\n\npackage app\n"

/-- Its constraint. -/
def negatedTwiceConstraint : Constraint :=
  .any [.not (.all [.not (.tag "integration"), .not (.tag "go1.26")]), .not (.tag "windows")]

theorem ofSource_negatedTwice :
    Constraint.ofSource negatedTwice = .ok (some negatedTwiceConstraint) := by
  have hheader : Constraint.header negatedTwice =
      [.goBuild "!(!integration && !go1.26) || !windows".toList, .blank] := by decide +kernel
  have hparse : Constraint.parse? "!(!integration && !go1.26) || !windows".toList =
      some negatedTwiceConstraint :=
    Constraint.parse?_eq_some_of_tokens
      (.more (.one (.not (.group (.one (.more (.not (.tag "integration"))
        (.one (.not (.tag "go1.26")))))))) (.one (.one (.not (.tag "windows")))))
      (by decide +kernel) (by decide)
  rw [Constraint.ofSource_eq, hheader, Constraint.stated, Constraint.ofExpression, hparse]

/-- A tag is added and the release is raised, and the package is still found. -/
theorem nothing_lost_of_negatedTwice :
    let A : GoContext := { gopath := [⟨"/ws"⟩] }
    let B : GoContext := { gopath := [⟨"/ws"⟩], buildTags := ["integration"], release := 26 }
    let found : Location := ⟨"app", ⟨"/ws/src/app"⟩, false⟩
    A.GrowsTo B ∧
      (A.satisfies "integration" = false ∧ B.satisfies "integration" = true) ∧
      (A.satisfies "go1.26" = false ∧ B.satisfies "go1.26" = true) ∧
      (A.locate (workspaceOf negatedTwice) "app" ⟨"/"⟩).result = .ok found ∧
      (B.locate (workspaceOf negatedTwice) "app" ⟨"/"⟩).result = .ok found := by
  intro A B found
  have hgrows : A.GrowsTo B := ⟨rfl, List.nil_subset _, by decide⟩
  have heven : A.MentionsEvenly B negatedTwiceConstraint := by
    unfold MentionsEvenly
    decide
  have hlist : (workspaceOf negatedTwice).list ⟨"/ws/src/app"⟩ =
      .ok [("app.go", .file (.text negatedTwice))] := rfl
  have hread : (workspaceOf negatedTwice).readText (found.dir.child "app.go") =
      .ok negatedTwice := by decide
  have hfound : (A.locate (workspaceOf negatedTwice) "app" ⟨"/"⟩).result = .ok found := by
    have hvalid : ImportPath.validate "app" = .ok () := by decide
    have htarget : A.target (workspaceOf negatedTwice) "app" ⟨"/"⟩ = .ok found := by decide
    have hbuilds : A.BuildsAt (workspaceOf negatedTwice) found.dir "app.go" :=
      ⟨negatedTwice, hread, by decide, .inr ⟨_, ofSource_negatedTwice, by decide⟩⟩
    rw [locate, hvalid]
    dsimp only
    rw [htarget]
    exact result_accept_eq_ok_iff.mpr ⟨rfl, _, hlist, verdict_examine_of_buildsAt hbuilds []⟩
  refine ⟨hgrows, ⟨by decide, by decide⟩, ⟨by decide, by decide⟩, hfound,
    ((nothing_lost hgrows).2.2.2 _).2 _ _ _ hfound ?_⟩
  -- the only file of the package has the constraint
  intro entries hentries name hname _ source hsource c hc
  obtain rfl := Except.ok.inj (hlist.symm.trans hentries)
  obtain rfl : name = "app.go" := List.mem_singleton.mp hname
  obtain rfl := Except.ok.inj (hread.symm.trans hsource)
  obtain rfl := Option.some_inj.mp (Except.ok.inj (ofSource_negatedTwice.symm.trans hc))
  exact heven

/-- One `!` is enough to lose a constraint by a tag. -/
example :
    let A : GoContext := {}
    let B : GoContext := { buildTags := ["integration"] }
    (Constraint.not (.tag "integration")).holds A.satisfies = true ∧
      (Constraint.not (.tag "integration")).holds B.satisfies = false := by
  decide

end GoResolver.GoContext
