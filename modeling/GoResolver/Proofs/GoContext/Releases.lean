import GoResolver.Proofs.GoContext.Tags
import GoResolver.Proofs.Text.Lines

/-!
# Releases

A context with the release `N` says yes to the release tags `go1.1` to `go1.N`, as long as its
system and its architecture do not look like release tags themselves.

## The tags

A release tag is recognized by its number, not by its text: what stands behind `go1.` is read as a
number of 32 bits (`satisfies_iff_of_go`).  For a number there is one release tag, but a reader of
numbers also takes zeros in front of it and a plus sign, and so these spellings hold as well
(`release_spellings_hold`, `not_only_release_tags_hold`).

## Where the release comes from

A version is `1.` and a number, perhaps behind `go`.  What comes after the last digit does not
matter, and neither do blanks around the version (`IsVersion`, `releaseOf?_eq_some_iff`).  A number
of more than 32 bits names no release.  The first that names one decides: the version in the
settings, the first line of the toolchain's `VERSION` file, and the built-in default
(`release_ofSettings_cases`).

`release_tags_ofSettings` puts both parts together.
-/

namespace GoResolver.GoContext

variable {ctx : GoContext} {tag : String}

/-! ## 1. Release tags -/

/-- The tag of a release. -/
def releaseTag (k : Nat) : String := "go1." ++ toString k

theorem toList_releaseTag (k : Nat) :
    (releaseTag k).toList = "go1.".toList ++ Text.digits 10 k := by
  rw [releaseTag, String.toList_append, Nat.toString_eq_repr, Nat.toList_repr, Text.digits]

/-- A tag is a release tag when nothing but the number stands behind its start. -/
theorem eq_releaseTag_iff {minor : List Char} {k : Nat}
    (hminor : tag.toList = "go1.".toList ++ minor) :
    tag = releaseTag k ↔ minor = Text.digits 10 k := by
  rw [← String.toList_inj, toList_releaseTag, hminor, List.append_right_inj]

/-- Neither the system nor the architecture of the target looks like a release tag. -/
structure HasPlainTarget (ctx : GoContext) : Prop where
  goos : ¬ "go1.".toList <+: ctx.goos.toList
  goarch : ¬ "go1.".toList <+: ctx.goarch.toList

/-- Then no tag with such a start names the target, and its number decides. -/
theorem satisfies_iff_of_go (h : ctx.HasPlainTarget) (htag : "go1.".toList <+: tag.toList) :
    ctx.satisfies tag = true ↔ ctx.NamesRelease tag := by
  have hother : ∀ word : String, ¬ "go1.".toList <+: word.toList → tag ≠ word := by
    rintro word hword rfl
    exact hword htag
  have htarget : ¬ ctx.NamesTarget tag := by
    rw [NamesTarget, matchesSystem]
    simp [hother "linux" (by decide), hother "solaris" (by decide), hother "darwin" (by decide),
      hother "gc" (by decide), hother ctx.goos h.goos, hother ctx.goarch h.goarch]
  have hgrants : ctx.Grants tag ↔ ctx.NamesRelease tag := by
    simp [Grants, hother "unix" (by decide), hother "cgo" (by decide)]
  have hreserved : IsReserved tag := .inr (.inr htag)
  rw [satisfies_iff, or_iff_right htarget, or_iff_left fun hfree => hfree.1 hreserved, hgrants]

/-- A release tag is read as its own number. -/
theorem namesRelease_releaseTag (k : Nat) :
    ctx.NamesRelease (releaseTag k) ↔ 1 ≤ k ∧ k ≤ ctx.release ∧ k < Text.word32Limit := by
  have hread : ∀ j, Text.word32? (Text.digits 10 k) = some j ↔ j = k ∧ k < Text.word32Limit := by
    intro j
    have hnumeral := Text.isNumeral_digits k
    rw [Text.word32?, hnumeral.dropPlus_eq, Text.natural?_eq_some_iff.mpr hnumeral,
      Option.filter_some, Option.ite_none_right_eq_some, decide_eq_true_eq, Option.some_inj,
      and_comm, eq_comm]
  rw [namesRelease_iff (toList_releaseTag k)]
  simp only [hread]
  constructor
  · rintro ⟨j, ⟨rfl, hlimit⟩, hone, hle⟩
    exact ⟨hone, hle, hlimit⟩
  · rintro ⟨hone, hle, hlimit⟩
    exact ⟨k, ⟨rfl, hlimit⟩, hone, hle⟩

/-- A release tag holds up to the context's own, if its number has no more than 32 bits. -/
theorem satisfies_releaseTag_iff (h : ctx.HasPlainTarget) (k : Nat) :
    ctx.satisfies (releaseTag k) = true ↔ 1 ≤ k ∧ k ≤ ctx.release ∧ k < Text.word32Limit := by
  rw [satisfies_iff_of_go h ⟨_, (toList_releaseTag k).symm⟩, namesRelease_releaseTag]

/-- A spelling of a release tag that has no plus sign and no zero in front is the release tag. -/
theorem SpellsRelease.eq_releaseTag {k : Nat} (h : SpellsRelease tag k)
    (hplus : ¬ "go1.+".toList <+: tag.toList) (hzero : ¬ "go1.0".toList <+: tag.toList) :
    tag = releaseTag k := by
  obtain ⟨plus, numeral, rfl | rfl, ⟨zeros, rfl⟩, htag⟩ := h
  · cases zeros with
    | zero => exact (eq_releaseTag_iff htag).mpr rfl
    | succ zeros =>
      refine absurd ⟨List.replicate zeros '0' ++ Text.digits 10 k, ?_⟩ hzero
      rw [htag, List.replicate_succ]
      rfl
  · refine absurd ⟨List.replicate zeros '0' ++ Text.digits 10 k, ?_⟩ hplus
    rw [htag]
    rfl

/-- **Which tags that start like a release tag hold.**  Let the target not look like one.  Such a
tag holds when it spells the tag of a release from 1 to the context's own; of the release tags these
hold and no others; and of all tags that start so, any that holds besides them has a plus sign or a
zero in front of its number. -/
theorem release_spellings_hold (h : ctx.HasPlainTarget) :
    (∀ tag, "go1.".toList <+: tag.toList →
      (ctx.satisfies tag = true ↔
        ∃ k, SpellsRelease tag k ∧ 1 ≤ k ∧ k ≤ ctx.release ∧ k < Text.word32Limit)) ∧
    (∀ k, ctx.satisfies (releaseTag k) = true ↔ 1 ≤ k ∧ k ≤ ctx.release ∧ k < Text.word32Limit) ∧
    ∀ tag, "go1.".toList <+: tag.toList → ¬ "go1.+".toList <+: tag.toList →
      ¬ "go1.0".toList <+: tag.toList →
      (ctx.satisfies tag = true ↔
        ∃ k, tag = releaseTag k ∧ 1 ≤ k ∧ k ≤ ctx.release ∧ k < Text.word32Limit) := by
  refine ⟨fun _ => satisfies_iff_of_go h, satisfies_releaseTag_iff h,
    fun tag htag hplus hzero => ⟨fun hholds => ?_, ?_⟩⟩
  · obtain ⟨k, hspells, hbounds⟩ := (satisfies_iff_of_go h htag).mp hholds
    exact ⟨k, hspells.eq_releaseTag hplus hzero, hbounds⟩
  · rintro ⟨k, rfl, hbounds⟩
    exact (satisfies_releaseTag_iff h k).mpr hbounds

/-- Up to the release 21, and for a spelling with a zero in front. -/
theorem release_spellings_hold_up_to :
    let ctx : GoContext := { release := 21, buildTags := ["integration"] }
    ctx.HasPlainTarget ∧ ctx.satisfies (releaseTag 21) = true ∧
      ctx.satisfies (releaseTag 22) = false ∧ ctx.satisfies "go1.021" = true := by
  intro ctx
  have hplain : ctx.HasPlainTarget := ⟨by decide, by decide⟩
  have hspells : SpellsRelease "go1.021" 21 := ⟨[], ['0', '2', '1'], .inl rfl, ⟨1, rfl⟩, rfl⟩
  obtain ⟨hspelled, hown, -⟩ := release_spellings_hold hplain
  refine ⟨hplain, (hown 21).mpr (by decide), ?_, ?_⟩
  · rw [← Bool.not_eq_true, hown]
    decide
  · exact (hspelled "go1.021" hspells.prefix_tag).mpr ⟨21, hspells, by decide⟩

/-- Two tags that are no release tags hold: a reader of numbers takes them for one. -/
theorem not_only_release_tags_hold :
    let ctx : GoContext := { release := 25 }
    ctx.HasPlainTarget ∧ ctx.buildTags = [] ∧
      ∀ tag ∈ ["go1.05", "go1.+5"], ctx.satisfies tag = true ∧ ∀ k, tag ≠ releaseTag k := by
  intro ctx
  refine ⟨⟨by decide, by decide⟩, rfl, ?_⟩
  have hzero : ∀ k, "go1.05" ≠ releaseTag k := by
    intro k h
    have htag : "go1.05".toList = "go1.".toList ++ ['0', '5'] := rfl
    rw [eq_releaseTag_iff htag] at h
    rcases Text.digits_cases k with hone | ⟨c, ds, hfirst, hc⟩
    · rw [hone] at h
      cases h
    · rw [hfirst] at h
      exact hc (List.cons.inj h).1.symm
  have hplus : ∀ k, "go1.+5" ≠ releaseTag k := by
    intro k h
    have htag : "go1.+5".toList = "go1.".toList ++ ['+', '5'] := rfl
    rw [eq_releaseTag_iff htag] at h
    have hdigit : '+' ∈ Text.digits 10 k := by
      rw [← h]
      exact List.mem_cons_self
    exact absurd (Text.isDigit_of_mem_digits hdigit) (by decide)
  rw [List.forall_mem_cons, List.forall_mem_singleton]
  exact ⟨⟨by decide, hzero⟩, by decide, hplus⟩

/-! ## 2. Versions -/

/-- Whether a text is a version with a number: blanks, which may be missing, as may the `go` after
them; then `1.`, the number in decimal, and no further digit.  What ends the text may end in blanks
of its own. -/
def IsVersion (v : List Char) (n : Nat) : Prop :=
  ∃ blanks go numeral ending, (∀ c ∈ blanks, Text.isBlank c = true) ∧
    (go = [] ∨ go = "go".toList) ∧ Text.IsNumeral numeral n ∧
    (∀ c ∈ ending.head?, Text.isDigit c = false) ∧
    v = blanks ++ (go ++ ("1.".toList ++ (numeral ++ ending)))

theorem isDigit_of_isBlank {c : Char} (h : Text.isBlank c = true) : Text.isDigit c = false := by
  rw [← Bool.not_eq_true, Text.isDigit_iff]
  intro hdigit
  simp [Text.isBlank] at h
  omega

/-- A `go` in front of a version is taken off, and nothing else is. -/
theorem getD_after?_go {go r : List Char} (hgo : go = [] ∨ go = "go".toList) :
    (Text.after? "go".toList (go ++ ("1.".toList ++ r))).getD (go ++ ("1.".toList ++ r)) =
      "1.".toList ++ r := by
  rcases hgo with rfl | rfl
  · rfl
  · rw [Text.after?_eq_some_iff.mpr rfl]
    rfl

/-- A version without the blanks around it. -/
theorem trim_version {blanks go numeral ending : List Char} {n : Nat}
    (hblanks : ∀ c ∈ blanks, Text.isBlank c = true) (hgo : go = [] ∨ go = "go".toList)
    (hnumeral : Text.IsNumeral numeral n) :
    Text.trim (blanks ++ (go ++ ("1.".toList ++ (numeral ++ ending)))) =
      go ++ ("1.".toList ++ (numeral ++ Text.trimEnd ending)) := by
  obtain ⟨hne, hdigits⟩ := hnumeral.all_isDigit
  have hfirst : ∃ c ∈ (go ++ ("1.".toList ++ numeral)).head?, Text.isBlank c = false := by
    rcases hgo with rfl | rfl
    · exact ⟨'1', rfl, by decide⟩
    · exact ⟨'g', rfl, by decide⟩
  have hlast : ∃ d ∈ (go ++ ("1.".toList ++ numeral)).getLast?, Text.isBlank d = false := by
    obtain ⟨d, hd⟩ := List.getLast?_isSome.mpr hne |> Option.isSome_iff_exists.mp
    refine ⟨d, ?_, ?_⟩
    · rw [← List.append_assoc, List.getLast?_append_of_ne_nil _ hne]
      exact hd
    · rw [← Bool.not_eq_true]
      intro hblank
      have hdigit := hdigits d (List.mem_of_getLast? hd)
      rw [isDigit_of_isBlank hblank] at hdigit
      cases hdigit
  have hsplit : ∀ r, go ++ ("1.".toList ++ (numeral ++ r)) =
      go ++ ("1.".toList ++ numeral) ++ r := by
    intro r
    rw [List.append_assoc, List.append_assoc]
  rw [hsplit, hsplit, Text.trim_append_append hblanks hfirst hlast]

/-- A version is read as its number. -/
theorem releaseOf?_of_isVersion {v : List Char} {n : Nat} (h : IsVersion v n) :
    releaseOf? v = (some n).filter (· < Text.word32Limit) := by
  obtain ⟨blanks, go, numeral, ending, hblanks, hgo, hnumeral, hending, rfl⟩ := h
  have hstops : ∀ c ∈ (Text.trimEnd ending).head?, Text.isDigit c = false := by
    obtain ⟨back, hback⟩ := Text.trimEnd_isPrefix ending
    cases hend : Text.trimEnd ending with
    | nil => exact fun c hc => by cases hc
    | cons c t =>
      rw [← hback, hend] at hending
      exact hending
  rw [releaseOf?, trim_version hblanks hgo hnumeral, getD_after?_go hgo,
    Text.after?_eq_some_iff.mpr rfl]
  dsimp only
  rw [(Text.takeWhile_append_of_stops hnumeral.all_isDigit.2 hstops).1,
    Text.natural?_eq_some_iff.mpr hnumeral]

/-- **What names a release** is a version whose number fits into 32 bits. -/
theorem releaseOf?_eq_some_iff {v : List Char} {n : Nat} :
    releaseOf? v = some n ↔ IsVersion v n ∧ n < Text.word32Limit := by
  constructor
  · intro h
    rw [releaseOf?] at h
    split at h
    · cases h
    · next rest hrest =>
      rw [Option.filter_eq_some_iff, Text.natural?_eq_some_iff, decide_eq_true_eq] at h
      obtain ⟨hnumeral, hlimit⟩ := h
      refine ⟨?_, hlimit⟩
      rw [Text.after?_eq_some_iff] at hrest
      have hgo : ∃ go, (go = [] ∨ go = "go".toList) ∧
          Text.trim v = go ++ ("1.".toList ++ rest) := by
        cases hafter : Text.after? "go".toList (Text.trim v) with
        | none =>
          rw [hafter, Option.getD_none] at hrest
          exact ⟨[], .inl rfl, hrest⟩
        | some s =>
          rw [hafter, Option.getD_some] at hrest
          rw [Text.after?_eq_some_iff, hrest] at hafter
          exact ⟨"go".toList, .inr rfl, hafter⟩
      obtain ⟨go, hgo, htrim⟩ := hgo
      obtain ⟨front, back, hfront, hback, hv⟩ := Text.exists_blanks_trim v
      refine ⟨front, go, _, rest.dropWhile Text.isDigit ++ back, hfront, hgo, hnumeral, ?_, ?_⟩
      · -- what ends the text starts where the digits stop, or is blank
        have hstop := List.head?_dropWhile_not Text.isDigit rest
        cases hrest : rest.dropWhile Text.isDigit with
        | cons c t =>
          rw [hrest] at hstop
          intro d hd
          rw [← Option.some_inj.mp hd]
          exact hstop
        | nil =>
          intro c hc
          exact isDigit_of_isBlank (hback c (List.mem_of_mem_head? hc))
      · rw [hv, htrim, ← List.append_assoc (rest.takeWhile Text.isDigit),
          List.takeWhile_append_dropWhile]
        simp
  · rintro ⟨h, hlimit⟩
    rw [releaseOf?_of_isVersion h, Option.filter_some, if_pos (by simpa using hlimit)]

/-- A version has no second number that fits into 32 bits. -/
theorem IsVersion.unique {v : List Char} {m n : Nat} (hm : IsVersion v m) (hn : IsVersion v n)
    (hlimit : m < Text.word32Limit) : m = n := by
  have hread := (releaseOf?_of_isVersion hn).symm.trans
    (releaseOf?_eq_some_iff.mpr ⟨hm, hlimit⟩)
  rw [Option.filter_eq_some_iff, Option.some_inj] at hread
  exact hread.1.symm

/-! ## 3. Where the release comes from -/

/-- Blanks around a version do not matter. -/
theorem releaseOf?_congr {v w : List Char} (h : Text.trim v = Text.trim w) :
    releaseOf? v = releaseOf? w := by
  rw [releaseOf?, releaseOf?, h]

/-- Whether build settings name a release. -/
def SettingsName (s : BuildSettings) (n : Nat) : Prop :=
  ∃ v, s.goVersion = some v ∧ IsVersion v.toList n ∧ n < Text.word32Limit

/-- Whether a toolchain, if there is one, names a release in the first line of its `VERSION`
file. -/
def ToolchainNames (files : FileTree) (goroot : Option Path) (n : Nat) : Prop :=
  ∃ root text line, goroot = some root ∧ files.readText (root.child "VERSION") = .ok text ∧
    Text.IsFirstLine line text.toList ∧ IsVersion line n ∧ n < Text.word32Limit

theorem bind_goVersion_eq_some_iff {s : BuildSettings} {n : Nat} :
    (s.goVersion.bind fun v => releaseOf? v.toList) = some n ↔ SettingsName s n := by
  rw [Option.bind_eq_some_iff, SettingsName]
  simp only [releaseOf?_eq_some_iff]

/-- The first of a text's lines is read as its first line. -/
theorem bind_head?_lines {line text : List Char} (h : Text.IsFirstLine line text) :
    (Text.lines text).head?.bind releaseOf? = releaseOf? line := by
  rcases eq_or_ne text [] with rfl | hne
  · obtain rfl : line = [] := by
      obtain ⟨-, hline | ⟨ending, rest, -, hline⟩⟩ := h
      · exact hline.symm
      · exact (List.append_eq_nil_iff.mp hline.symm).1
    rfl
  · have htrim := Text.map_trim_head?_lines h hne
    rw [Option.map_eq_some_iff] at htrim
    obtain ⟨l, hhead, hl⟩ := htrim
    rw [hhead, Option.bind_some, releaseOf?_congr hl]

theorem bind_toolchainRelease?_eq_some_iff {files : FileTree} {goroot : Option Path} {n : Nat} :
    goroot.bind (toolchainRelease? files) = some n ↔ ToolchainNames files goroot n := by
  rw [Option.bind_eq_some_iff]
  refine exists_congr fun root => ?_
  rw [toolchainRelease?]
  constructor
  · rintro ⟨hroot, h⟩
    split at h
    · cases h
    · next text hread =>
      obtain ⟨line, hline⟩ := Text.exists_isFirstLine text.toList
      rw [bind_head?_lines hline, releaseOf?_eq_some_iff] at h
      exact ⟨text, line, hroot, hread, hline, h⟩
  · rintro ⟨text, line, hroot, hread, hline, h⟩
    refine ⟨hroot, ?_⟩
    rw [hread]
    dsimp only
    rw [bind_head?_lines hline, releaseOf?_eq_some_iff]
    exact h

/-- **Where the release comes from**: the settings, else the toolchain, else the default. -/
theorem release_ofSettings_cases (host : Host) (s : BuildSettings) :
    (∀ n, SettingsName s n → (ofSettings host s).release = n) ∧
    ((∀ n, ¬ SettingsName s n) →
      (∀ n, ToolchainNames host.files (ofSettings host s).goroot n →
        (ofSettings host s).release = n) ∧
      ((∀ n, ¬ ToolchainNames host.files (ofSettings host s).goroot n) →
        (ofSettings host s).release = defaultRelease)) := by
  have hrelease : (ofSettings host s).release =
      ((s.goVersion.bind fun v => releaseOf? v.toList) <|>
        (ofSettings host s).goroot.bind (toolchainRelease? host.files)).getD defaultRelease := rfl
  rw [hrelease]
  refine ⟨fun n hn => ?_, fun hnone => ?_⟩
  · rw [bind_goVersion_eq_some_iff.mpr hn]
    rfl
  have hsettings : (s.goVersion.bind fun v => releaseOf? v.toList) = none :=
    Option.eq_none_iff_forall_ne_some.mpr fun m hm => hnone m (bind_goVersion_eq_some_iff.mp hm)
  rw [hsettings]
  refine ⟨fun n hn => ?_, fun hneither => ?_⟩
  · rw [bind_toolchainRelease?_eq_some_iff.mpr hn]
    rfl
  · have htoolchain : (ofSettings host s).goroot.bind (toolchainRelease? host.files) = none :=
      Option.eq_none_iff_forall_ne_some.mpr fun m hm =>
        hneither m (bind_toolchainRelease?_eq_some_iff.mp hm)
    rw [htoolchain]
    rfl

/-- **Which release tags hold in a context that settings describe.**  Let its target not look like a
release tag.  Up to the release that the settings name, all release tags hold, and no others; if
they name none, up to the one that the toolchain names; and if it names none either, up to the
default. -/
theorem release_tags_ofSettings (host : Host) (s : BuildSettings)
    (h : (ofSettings host s).HasPlainTarget) :
    (∀ n, SettingsName s n →
      ∀ k, (ofSettings host s).satisfies (releaseTag k) = true ↔ 1 ≤ k ∧ k ≤ n) ∧
    ((∀ n, ¬ SettingsName s n) →
      (∀ n, ToolchainNames host.files (ofSettings host s).goroot n →
        ∀ k, (ofSettings host s).satisfies (releaseTag k) = true ↔ 1 ≤ k ∧ k ≤ n) ∧
      ((∀ n, ¬ ToolchainNames host.files (ofSettings host s).goroot n) →
        ∀ k, (ofSettings host s).satisfies (releaseTag k) = true ↔
          1 ≤ k ∧ k ≤ defaultRelease)) := by
  have hbound : ∀ {n}, (ofSettings host s).release = n → n < Text.word32Limit →
      ∀ k, (ofSettings host s).satisfies (releaseTag k) = true ↔ 1 ≤ k ∧ k ≤ n := by
    rintro n rfl hlimit k
    rw [satisfies_releaseTag_iff h]
    omega
  obtain ⟨hsettings, hother⟩ := release_ofSettings_cases host s
  refine ⟨fun n hn => hbound (hsettings n hn) ?_, fun hnone => ⟨fun n hn =>
    hbound ((hother hnone).1 n hn) ?_, fun hneither => hbound ((hother hnone).2 hneither) ?_⟩⟩
  · obtain ⟨v, -, -, hlimit⟩ := hn
    exact hlimit
  · obtain ⟨root, text, line, -, -, -, -, hlimit⟩ := hn
    exact hlimit
  · decide

/-- The number in the settings is too large by one, so the toolchain's own counts: a no-break space
in front, zeros, a release candidate, and a line that ends in a return. -/
theorem release_tags_ofSettings_in_toolchain :
    let host : Host :=
      { files := { cwd := [], root := .dir [("go", .dir [("VERSION",
          .file (.text "\u00a0go1.0022rc1\r\ntime 2024-05-01\n"))])] }
        environment := [("GOROOT", "/go")] }
    let s : BuildSettings := { goVersion := some "go1.4294967296" }
    (ofSettings host s).satisfies (releaseTag 22) = true ∧
      (ofSettings host s).satisfies (releaseTag 23) = false := by
  intro host s
  have hplain : (ofSettings host s).HasPlainTarget := ⟨by decide, by decide⟩
  have hlarge : IsVersion "go1.4294967296".toList 4294967296 :=
    ⟨[], "go".toList, _, [], by simp, .inr rfl, Text.isNumeral_digits _, by simp, by decide⟩
  have hnone : ∀ n, ¬ SettingsName s n := by
    rintro n ⟨v, hv, hversion, hlimit⟩
    obtain rfl := Option.some_inj.mp hv
    rw [hversion.unique hlarge hlimit] at hlimit
    exact absurd hlimit (by decide)
  have hblank : ∀ c ∈ ['\u00a0'], Text.isBlank c = true :=
    List.forall_mem_singleton.mpr (by decide)
  have hending : ∀ c ∈ "rc1".toList.head?, Text.isDigit c = false := by
    intro c hc
    rw [← Option.some_inj.mp hc]
    decide
  have hversion : IsVersion "\u00a0go1.0022rc1".toList 22 :=
    ⟨['\u00a0'], "go".toList, ['0', '0', '2', '2'], "rc1".toList, hblank, .inr rfl, ⟨2, rfl⟩,
      hending, rfl⟩
  have hfirst : Text.IsFirstLine "\u00a0go1.0022rc1".toList
      "\u00a0go1.0022rc1\r\ntime 2024-05-01\n".toList :=
    ⟨by decide, .inr ⟨['\r', '\n'], "time 2024-05-01\n".toList, .inr rfl, rfl⟩⟩
  have hnames : ToolchainNames host.files (ofSettings host s).goroot 22 :=
    ⟨⟨"/go"⟩, _, _, by decide, by decide, hfirst, hversion, by decide⟩
  obtain ⟨-, hother⟩ := release_tags_ofSettings host s hplain
  have hbound := (hother hnone).1 22 hnames
  refine ⟨(hbound 22).mpr (by decide), ?_⟩
  rw [← Bool.not_eq_true, hbound]
  decide

end GoResolver.GoContext
