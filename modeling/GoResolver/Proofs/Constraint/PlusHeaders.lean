import GoResolver.Proofs.Constraint.Header
import GoResolver.Proofs.Constraint.PlusLines
import Mathlib.Data.List.Perm.Basic

/-!
# Headers without a `//go:build` line

Such a header states that each of its `+build` lines holds, and a line holds when all terms of one
of its options do.  Lines without a body state nothing, and one line that cannot be read spoils the
whole header.

* `truth?_ofSource`: all of this in one equation, on the bodies of the header's lines.
* `ofSource_of_plusLines`: the same for sources, with the error, the missing constraint and the
  constraint that is found told apart.

## The order of the lines

The equation asks whether *every* line can be read and whether *every* line holds, so the order of
the lines does not matter once they are known.  What has to be shown is that moving lines around in
the text moves the same lines around in the header and does nothing else there.  This is so for
lines that are met outside block comments, if the text between them leaves the scan outside block
comments again (`blockAfter?`).  `Rearranged` says it for any number of lines, each with a gap of
other lines behind it that stays where it is; `header_perm_of_rearranged` is the fact.
-/

namespace GoResolver.Constraint

/-! ## 1. What the lines state -/

theorem malformed?_eq_none_iff {line : Line} :
    line.malformed? = none ↔ ∀ body, line.body? = some body → IsPlusLine body := by
  cases line with
  | plusBuild body =>
    rw [Line.malformed?, Line.body?]
    by_cases hempty : body.isEmpty
    · simp [hempty]
    · simp [hempty, ← isSome_ofPlusLine?_iff, Option.isSome_iff_ne_none]
  | _ => simp [Line.malformed?, Line.body?]

theorem findSome?_malformed?_eq_none_iff {lines : List Line} :
    lines.findSome? Line.malformed? = none ↔ ∀ body ∈ plusBodies lines, IsPlusLine body := by
  rw [List.findSome?_eq_none_iff]
  constructor
  · intro h body hbody
    obtain ⟨line, hline, hsome⟩ := List.mem_filterMap.mp hbody
    exact malformed?_eq_none_iff.mp (h line hline) body hsome
  · intro h line hline
    exact malformed?_eq_none_iff.mpr fun body hsome =>
      h body (List.mem_filterMap.mpr ⟨line, hline, hsome⟩)

/-- The truth value of a constraint that was found; `some none` where there is none to be found, and
`none` for an error. -/
def truth? (satisfied : String → Bool) :
    Except Malformed (Option Constraint) → Option (Option Bool)
  | .error _ => none
  | .ok c => some (c.map (holds satisfied))

variable (satisfied : String → Bool)

theorem all_holds_filterMap {bodies : List (List Char)} (h : ∀ body ∈ bodies, IsPlusLine body) :
    (bodies.filterMap ofPlusLine?).all (holds satisfied) =
      bodies.all (plusLineHolds satisfied) := by
  induction bodies with
  | nil => rfl
  | cons body bodies ih =>
    obtain ⟨hbody, hbodies⟩ := List.forall_mem_cons.mp h
    obtain ⟨c, hc⟩ := Option.isSome_iff_exists.mp (isSome_ofPlusLine?_iff.mpr hbody)
    rw [List.filterMap_cons_some hc, List.all_cons, List.all_cons,
      holds_of_ofPlusLine? satisfied hc, ih hbodies]

theorem map_holds_ofLines {bodies : List (List Char)} (h : ∀ body ∈ bodies, IsPlusLine body) :
    (ofLines (bodies.filterMap ofPlusLine?)).map (holds satisfied) =
      if bodies = [] then none else some (bodies.all (plusLineHolds satisfied)) := by
  rw [← all_holds_filterMap satisfied h]
  cases bodies with
  | nil => rfl
  | cons body bodies =>
    obtain ⟨c, hc⟩ :=
      Option.isSome_iff_exists.mp (isSome_ofPlusLine?_iff.mpr (h body List.mem_cons_self))
    rw [if_neg (List.cons_ne_nil body bodies), List.filterMap_cons_some hc, ofLines,
      Option.map_some, holds_conj]
    exact List.cons_ne_nil c _

/-- **A header without a `//go:build` line states that each of its lines holds.** -/
theorem truth?_ofSource {source : String} (hnone : ∀ e, .goBuild e ∉ header source) :
    truth? satisfied (ofSource source) =
      if ∀ body ∈ plusBodies (header source), IsPlusLine body then
        some (if plusBodies (header source) = [] then none
          else some ((plusBodies (header source)).all (plusLineHolds satisfied)))
      else none := by
  have hstated := stated_append hnone [] []
  rw [List.append_nil, List.nil_append, ← ofSource_eq] at hstated
  rw [hstated]
  by_cases h : ∀ body ∈ plusBodies (header source), IsPlusLine body
  · rw [if_pos h, findSome?_malformed?_eq_none_iff.mpr h]
    exact congrArg some (map_holds_ofLines satisfied h)
  · rw [if_neg h]
    cases hfind : (header source).findSome? Line.malformed? with
    | none => exact absurd (findSome?_malformed?_eq_none_iff.mp hfind) h
    | some m => rfl

/-- Only which lines there are matters, not their order. -/
theorem truth?_ofSource_eq_of_perm {source source' : String}
    (hperm : (header source').Perm (header source)) (hnone : ∀ e, .goBuild e ∉ header source) :
    truth? satisfied (ofSource source') = truth? satisfied (ofSource source) := by
  have hnone' : ∀ e, .goBuild e ∉ header source' := fun e h => hnone e (hperm.mem_iff.mp h)
  have hbodies : (plusBodies (header source')).Perm (plusBodies (header source)) :=
    hperm.filterMap _
  have hall : (plusBodies (header source')).all (plusLineHolds satisfied) =
      (plusBodies (header source)).all (plusLineHolds satisfied) := hbodies.all_eq
  have hread : (∀ body ∈ plusBodies (header source'), IsPlusLine body) ↔
      ∀ body ∈ plusBodies (header source), IsPlusLine body :=
    forall_congr' fun body => by rw [hbodies.mem_iff]
  have hempty : plusBodies (header source') = [] ↔ plusBodies (header source) = [] := by
    rw [← List.length_eq_zero_iff, hbodies.length_eq, List.length_eq_zero_iff]
  simp only [truth?_ofSource satisfied hnone, truth?_ofSource satisfied hnone', hall, hread,
    hempty]

/-! ## 2. Lines in another order -/

/-- Whether a block comment is open after the lines; `none` when a line of code is among them, and
so nothing after them is looked at. -/
def blockAfter? (inBlock : Bool) : List (List Char) → Option Bool
  | [] => some inBlock
  | line :: rest =>
    match visible inBlock (Text.trim line) with
    | .inside => blockAfter? true rest
    | .text s => if Line.ofText s = .code then none else blockAfter? false rest

theorem headerLines_append {inBlock inBlock' : Bool} {lines : List (List Char)}
    (h : blockAfter? inBlock lines = some inBlock') (rest : List (List Char)) :
    headerLines inBlock (lines ++ rest) =
      headerLines inBlock lines ++ headerLines inBlock' rest := by
  induction lines generalizing inBlock with
  | nil => rw [← Option.some_inj.mp h]; rfl
  | cons line lines ih =>
    rw [List.cons_append, headerLines, headerLines]
    rw [blockAfter?] at h
    cases hvisible : visible inBlock (Text.trim line) with
    | inside =>
      rw [hvisible] at h
      exact ih h
    | text s =>
      rw [hvisible] at h
      dsimp only at h ⊢
      cases hkind : Line.ofText s with
      | code => rw [if_pos hkind] at h; cases h
      | _ =>
        rw [hkind, if_neg (by simp)] at h
        exact congrArg (_ :: ·) (ih h)

/-- Whether a line is a constraint line of the `+build` form, where no block comment is open at its
start. -/
def IsPlusBuildLine (line : List Char) : Prop :=
  ∃ body, headerLines false [line] = [.plusBuild body]

theorem blockAfter?_of_isPlusBuildLine {line : List Char} (h : IsPlusBuildLine line) :
    blockAfter? false [line] = some false := by
  obtain ⟨body, hheader⟩ := h
  rw [headerLines] at hheader
  rw [blockAfter?]
  cases hvisible : visible false (Text.trim line) with
  | inside =>
    rw [hvisible] at hheader
    cases hheader
  | text s =>
    rw [hvisible] at hheader
    dsimp only at hheader ⊢
    cases hkind : Line.ofText s with
    | code =>
      rw [hkind] at hheader
      cases hheader
    | _ => rw [if_neg (by simp), blockAfter?]

/-- Each line with the gap of other lines behind it. -/
def woven (ls : List (List Char)) (gaps : List (List (List Char))) : List (List Char) :=
  (List.zipWith List.cons ls gaps).flatten

/-- Up to the order, the header of lines with gaps has the lines first and then the gaps. -/
theorem headerLines_woven_perm {ls : List (List Char)} {gaps : List (List (List Char))}
    (hlength : ls.length = gaps.length) (hls : ∀ l ∈ ls, IsPlusBuildLine l)
    (hgaps : ∀ gap ∈ gaps, blockAfter? false gap = some false) (rest : List (List Char)) :
    (headerLines false (woven ls gaps ++ rest)).Perm
      (ls.flatMap (fun l => headerLines false [l]) ++
        (gaps.flatMap (headerLines false) ++ headerLines false rest)) := by
  induction ls generalizing gaps with
  | nil =>
    obtain rfl := List.length_eq_zero_iff.mp hlength.symm
    exact .refl _
  | cons l ls ih =>
    obtain ⟨gap, gaps, rfl⟩ := List.exists_cons_of_length_eq_add_one hlength.symm
    obtain ⟨hl, hls⟩ := List.forall_mem_cons.mp hls
    obtain ⟨hgap, hgaps⟩ := List.forall_mem_cons.mp hgaps
    have hrest := ih (Nat.succ_inj.mp hlength) hls hgaps
    have hsplit : woven (l :: ls) (gap :: gaps) ++ rest =
        [l] ++ (gap ++ (woven ls gaps ++ rest)) := by simp [woven]
    rw [hsplit, headerLines_append (blockAfter?_of_isPlusBuildLine hl), headerLines_append hgap,
      List.flatMap_cons, List.flatMap_cons, List.append_assoc, List.append_assoc]
    refine List.Perm.append_left _ ((hrest.append_left _).trans ?_)
    exact List.perm_append_comm_assoc _ _ _

/-- Whether the second source has the first one's `+build` lines in another order, and is the same
otherwise.  The lines that move stand outside block comments, before the first line of code. -/
def Rearranged (source source' : String) : Prop :=
  ∃ before ls ls' gaps rest,
    Text.lines source.toList = before ++ (woven ls gaps ++ rest) ∧
    Text.lines source'.toList = before ++ (woven ls' gaps ++ rest) ∧
    ls'.Perm ls ∧ ls.length = gaps.length ∧ (∀ l ∈ ls, IsPlusBuildLine l) ∧
    blockAfter? false before = some false ∧ ∀ gap ∈ gaps, blockAfter? false gap = some false

/-- **Moving constraint lines in a source moves them in its header.** -/
theorem header_perm_of_rearranged {source source' : String} (h : Rearranged source source') :
    (header source').Perm (header source) := by
  obtain ⟨before, ls, ls', gaps, rest, hsource, hsource', hperm, hlength, hls, hbefore, hgaps⟩ := h
  have hlength' : ls'.length = gaps.length := hperm.length_eq.trans hlength
  have hls' : ∀ l ∈ ls', IsPlusBuildLine l := fun l hl => hls l (hperm.mem_iff.mp hl)
  rw [header, header, hsource, hsource', headerLines_append hbefore, headerLines_append hbefore]
  refine List.Perm.append_left _ ((headerLines_woven_perm hlength' hls' hgaps rest).trans ?_)
  refine .trans ?_ (headerLines_woven_perm hlength hls hgaps rest).symm
  exact (hperm.flatMap_right _).append_right _

/-! ## 3. What a source states -/

theorem exists_error_iff {r : Except Malformed (Option Constraint)} :
    (∃ m, r = .error m) ↔ truth? satisfied r = none := by
  cases r <;> simp [truth?]

theorem eq_ok_none_iff {r : Except Malformed (Option Constraint)} :
    r = .ok none ↔ truth? satisfied r = some none := by
  cases r <;> simp [truth?]

/-- **A header without a `//go:build` line states that each of its `+build` lines holds.**

* There is an error exactly when a line with a body cannot be read.
* There is no constraint exactly when there is no line with a body.
* If there are such lines and all can be read, there is a constraint, and it holds exactly when each
  line has an option all of whose terms hold.
* A header with the same lines in another order gives an error, no constraint, or the same truth
  value again; and so does a source in which the `+build` lines have changed places. -/
theorem ofSource_of_plusLines {source : String} (hnone : ∀ e, .goBuild e ∉ header source) :
    ((∃ m, ofSource source = .error m) ↔
      ∃ body ∈ plusBodies (header source), ¬ IsPlusLine body) ∧
    (ofSource source = .ok none ↔ plusBodies (header source) = []) ∧
    (plusBodies (header source) ≠ [] →
      (∀ body ∈ plusBodies (header source), IsPlusLine body) →
      ∃ c, ofSource source = .ok (some c) ∧ ∀ satisfied : String → Bool,
        (c.holds satisfied = true ↔ ∀ body ∈ plusBodies (header source),
          ∃ option ∈ Text.words body, ∀ term ∈ Text.pieces ',' option,
            termHolds satisfied term = true)) ∧
    (∀ source', (header source').Perm (header source) → ∀ satisfied : String → Bool,
      truth? satisfied (ofSource source') = truth? satisfied (ofSource source)) ∧
    ∀ source', Rearranged source source' → ∀ satisfied : String → Bool,
      truth? satisfied (ofSource source') = truth? satisfied (ofSource source) := by
  refine ⟨?_, ?_, fun hne hread => ?_, fun source' hperm satisfied => ?_,
    fun source' h satisfied => ?_⟩
  · rw [exists_error_iff fun _ => true, truth?_ofSource _ hnone]
    simp
  · rw [eq_ok_none_iff fun _ => true, truth?_ofSource _ hnone, Option.ite_none_right_eq_some,
      Option.some_inj]
    constructor
    · rintro ⟨-, h⟩
      by_contra hne
      rw [if_neg hne] at h
      cases h
    · intro hempty
      rw [if_pos hempty, hempty]
      exact ⟨fun body hbody => absurd hbody List.not_mem_nil, rfl⟩
  · have hholds : ∀ satisfied, truth? satisfied (ofSource source) =
        some (some ((plusBodies (header source)).all (plusLineHolds satisfied))) := by
      intro satisfied
      rw [truth?_ofSource satisfied hnone, if_pos hread, if_neg hne]
    cases hsource : ofSource source with
    | error m => simp [hsource, truth?] at hholds
    | ok found =>
      cases found with
      | none => simp [hsource, truth?] at hholds
      | some c =>
        refine ⟨c, rfl, fun satisfied => ?_⟩
        have hc := hholds satisfied
        rw [hsource, truth?, Option.map_some, Option.some_inj, Option.some_inj] at hc
        rw [hc]
        simp only [plusLineHolds, List.all_eq_true, List.any_eq_true]
  · exact truth?_ofSource_eq_of_perm satisfied hperm hnone
  · exact truth?_ofSource_eq_of_perm satisfied (header_perm_of_rearranged h) hnone

/-- Two constraint lines, with a comment between them that hides a third. -/
def linuxThenCgo : String :=
  "// +build linux,!arm darwin\n/*\n// +build no\n*/\n//+build cgo\npackage x\n"

/-- The same source with its two constraint lines exchanged. -/
def cgoThenLinux : String :=
  "//+build cgo\n/*\n// +build no\n*/\n// +build linux,!arm darwin\npackage x\n"

theorem ofSource_of_plusLines_around_comment :
    plusBodies (header linuxThenCgo) = ["linux,!arm darwin".toList, "cgo".toList] ∧
    (∃ c, ofSource linuxThenCgo = .ok (some c) ∧
      c.holds (fun tag => tag == "linux" || tag == "cgo") = true) ∧
    Rearranged linuxThenCgo cgoThenLinux ∧
    ∀ satisfied : String → Bool,
      truth? satisfied (ofSource cgoThenLinux) = truth? satisfied (ofSource linuxThenCgo) := by
  have hheader : header linuxThenCgo =
      [.plusBuild "linux,!arm darwin".toList, .blank, .plusBuild "cgo".toList] := by
    decide +kernel
  have hnone : ∀ e, .goBuild e ∉ header linuxThenCgo := by simp [hheader]
  have hbodies : plusBodies (header linuxThenCgo) =
      ["linux,!arm darwin".toList, "cgo".toList] := by
    rw [hheader]
    rfl
  have hmoved : Rearranged linuxThenCgo cgoThenLinux := by
    refine ⟨[], ["// +build linux,!arm darwin".toList, "//+build cgo".toList],
      ["//+build cgo".toList, "// +build linux,!arm darwin".toList],
      [["/*".toList, "// +build no".toList, "*/".toList], []], ["package x".toList],
      by decide +kernel, by decide +kernel, .swap _ _ _, rfl, ?_, rfl, by decide +kernel⟩
    intro l hl
    rcases List.mem_pair.mp hl with rfl | rfl
    · exact ⟨"linux,!arm darwin".toList, by decide +kernel⟩
    · exact ⟨"cgo".toList, by decide +kernel⟩
  obtain ⟨-, -, hfound, -, horder⟩ := ofSource_of_plusLines hnone
  rw [hbodies] at hfound
  obtain ⟨c, hsource, hc⟩ := hfound (by simp) (by decide +kernel)
  refine ⟨hbodies, ⟨c, hsource, (hc _).mpr ?_⟩, hmoved, horder _ hmoved⟩
  intro body hbody
  rcases List.mem_pair.mp hbody with rfl | rfl
  · exact ⟨"linux,!arm".toList, by decide +kernel, by decide +kernel⟩
  · exact ⟨"cgo".toList, by decide +kernel, by decide +kernel⟩

end GoResolver.Constraint
