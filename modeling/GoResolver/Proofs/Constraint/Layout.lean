import GoResolver.Proofs.Constraint.Comments
import Mathlib.Logic.Relation

/-!
# The layout of a source text

How a source text is laid out does not change its constraint.  An edit of the layout (`Relaid`)

1. adds blanks at the start and at the end of a line, inside or outside block comments;
2. puts a blank line between two lines, inside or outside block comments;
3. puts a line comment that is no directive between two lines, outside block comments.

Ending every line with a carriage return and a line feed is the first edit made on all lines at once
(`withReturns`).

## Why the edits are invisible

The scan trims every line, so it takes two lines alike that are the same after trimming
(`Scan.step_of_trim_eq`), and a blank line leaves it in any state it is in, an open block comment
included (`Scan.step_of_blank`).  A comment line is another matter: inside a block it could close
the block.  Where a block comment is open is said here by a reader of single characters that knows
nothing of lines and trimming (`Region.after`), and a scan that has a block comment open has
reached a place where that reader has one open too (`Scan.eq_blockComment_of_foldl`).
-/

namespace GoResolver.Constraint

/-! ## 1. Where a block comment is open -/

/-- What stands at a place in a source text. -/
inductive Region where
  /-- No comment is open, and no code stands before. -/
  | outside
  | lineComment
  /-- Between the two characters that open a block comment. -/
  | opening
  | blockComment
  /-- Between the two characters that close a block comment. -/
  | closing
  /-- Code stands before. -/
  | code
  deriving Repr, DecidableEq

namespace Region

/-- What stands behind a character, given what stands before it and the character after it. -/
def step : Region → Char → Option Char → Region
  | .outside, c, next =>
    if c = '/' ∧ next = some '*' then .opening
    else if c = '/' ∧ next = some '/' then .lineComment
    else if Text.isBlank c then .outside
    else .code
  | .lineComment, c, _ => if c = '\n' then .outside else .lineComment
  | .opening, _, _ => .blockComment
  | .blockComment, c, next => if c = '*' ∧ next = some '/' then .closing else .blockComment
  | .closing, _, _ => .outside
  | .code, _, _ => .code

/-- What stands behind a text. -/
def after : Region → List Char → Region
  | region, [] => region
  | region, c :: s => after (region.step c s.head?) s

theorem after_of_blank {c : Char} (hc : Text.isBlank c = true) (s : List Char) :
    after .outside (c :: s) = after .outside s := by
  have hslash : c ≠ '/' := by
    rintro rfl
    exact absurd hc (by decide)
  rw [after, step, if_neg fun h => hslash h.1, if_neg fun h => hslash h.1, if_pos hc]

/-- A line comment ends with its line. -/
theorem after_lineComment {l : List Char} (hl : '\n' ∉ l) (s : List Char) :
    after .lineComment (l ++ '\n' :: s) = after .outside s := by
  induction l with
  | nil => rw [List.nil_append, after, step, if_pos rfl]
  | cons c l ih =>
    rw [List.mem_cons, not_or] at hl
    rw [List.cons_append, after, step, if_neg (Ne.symm hl.1), ih hl.2]

/-- A block comment ends with the first `*/`. -/
theorem after_blockComment (s : List Char) :
    after .blockComment s =
      match afterClose? s with
      | none => .blockComment
      | some r => after .outside r := by
  fun_induction afterClose? s with
  | case1 => rfl
  | case2 s => rfl
  | case3 c s hopen ih =>
    have hclosing : ¬ (c = '*' ∧ s.head? = some '/') := by
      rintro ⟨hc, hs⟩
      obtain ⟨r, hr⟩ := List.head?_eq_some_iff.mp hs
      exact hopen r hc hr
    rw [after, step, if_neg hclosing, ih]

end Region

/-- A text without a `*/`, or what stands before and behind the first one. -/
theorem closing_cases (s : List Char) :
    ¬ closing <:+: s ∨ ∃ body rest, s = body ++ '*' :: '/' :: rest ∧ ¬ closing <:+: body := by
  induction s with
  | nil => exact .inl (by decide)
  | cons c s ih =>
    by_cases hhead : closing <+: c :: s
    · obtain ⟨rest, hrest⟩ := hhead
      exact .inr ⟨[], rest, hrest.symm, by decide⟩
    · rcases ih with hopen | ⟨body, rest, rfl, hbody⟩
      · exact .inl fun hinside => (List.infix_cons_iff.mp hinside).elim hhead hopen
      · refine .inr ⟨c :: body, rest, rfl, fun hinside => ?_⟩
        rcases List.infix_cons_iff.mp hinside with hstart | hinside
        · exact hhead (hstart.trans (List.prefix_append (c :: body) _))
        · exact hbody hinside

/-! ## 2. Where the scan has a block comment open -/

theorem wholeLines_of_append {s t : List Char} (h : Text.WholeLines (s ++ t)) :
    Text.WholeLines t := by
  cases t with
  | nil => exact .inl rfl
  | cons c t =>
    rcases h with h | h
    · exact absurd h (by simp)
    · rw [List.getLast?_append_of_ne_nil _ (List.cons_ne_nil c t)] at h
      exact .inr h

namespace Scan

/-- A line that shows a text leaves no block comment open. -/
theorem step_of_text {inBlock : Bool} {l s : List Char}
    (h : visible inBlock (Text.trim l) = .text s) (read : List Constraint) :
    (∃ read', step (.going inBlock read) l = .going false read') ∨
      ∃ result, step (.going inBlock read) l = .ended result := by
  rw [step, h]
  dsimp only
  cases Line.ofText s with
  | blank => exact .inl ⟨read, rfl⟩
  | comment => exact .inl ⟨read, rfl⟩
  | code => exact .inr ⟨_, rfl⟩
  | goBuild e => exact .inr ⟨_, rfl⟩
  | plusBuild body =>
    dsimp only
    split
    · exact .inl ⟨read, rfl⟩
    · cases ofPlusLine? body with
      | some c => exact .inl ⟨read ++ [c], rfl⟩
      | none => exact .inr ⟨_, rfl⟩

theorem trim_lineComment (l : List Char) :
    Text.trim ('/' :: '/' :: l) = '/' :: '/' :: Text.trimEnd l := by
  rw [Text.trim, Text.trimStart_cons_of_not_blank _ (by decide)]
  exact Text.trimEnd_append_cons ['/'] l (by decide)

/-- A line with a line comment shows all of it. -/
theorem visible_of_lineComment {l body : List Char} (h : Text.trim l = '/' :: '/' :: body) :
    visible false (Text.trim l) = .text ('/' :: '/' :: body) := by
  rw [visible, if_neg Bool.false_ne_true, h, dropComments]
  rintro r ⟨⟩

/-- A blank in front of a text changes nothing. -/
theorem foldl_step_blank {c : Char} (hc : Text.isBlank c = true) (text : List Char)
    (read : List Constraint) :
    (Text.lines (c :: text)).foldl step (.going false read) =
      (Text.lines text).foldl step (.going false read) := by
  by_cases hfeed : c = '\n'
  · subst hfeed
    have hlines : Text.lines ('\n' :: text) = [] :: Text.lines text :=
      Text.lines_append_feed List.not_mem_nil text
    rw [hlines, List.foldl_cons, step_of_blank rfl]
  · have hfront : '\n' ∉ [c] := by simpa using Ne.symm hfeed
    refine foldl_step_append hfront (by simp) text fun l => ?_
    rw [List.singleton_append, Text.trim, Text.trimStart_cons_of_blank l hc]
    rfl

/-- A text that starts neither with a blank nor with a comment starts with code. -/
theorem foldl_step_of_code {l rest : List Char} (hl : '\n' ∉ l) (hrest : EndsLine rest)
    (hblank : ∃ c ∈ l.head?, Text.isBlank c = false) (hblock : ¬ ['/', '*'] <+: l)
    (hline : ¬ ['/', '/'] <+: l) (read : List Constraint) :
    (Text.lines (l ++ rest)).foldl step (.going false read) = .ended (.ok (ofLines read)) := by
  obtain ⟨c, hhead, hc⟩ := hblank
  obtain ⟨t, rfl⟩ := List.head?_eq_some_iff.mp hhead
  have hstart : Text.trimStart (c :: t) = c :: t := Text.trimStart_cons_of_not_blank t hc
  have htrim : Text.trim (c :: t) <+: c :: t := by
    rw [Text.trim, hstart]
    exact Text.trimEnd_isPrefix _
  have hne : Text.trim (c :: t) ≠ [] := by
    have hend : Text.trimEnd (c :: t) = c :: Text.trimEnd t := Text.trimEnd_append_cons [] t hc
    rw [Text.trim, hstart, hend]
    exact List.cons_ne_nil _ _
  have hcode : ShowsCode false (c :: t) :=
    ⟨_, _, .here fun h => hblock (h.trans htrim), hne, fun h => hline (h.trans htrim), rfl⟩
  exact foldl_step_code hl hcode read hrest

/-- A line comment leaves no block comment open. -/
theorem foldl_step_lineComment {l : List Char} (hl : '\n' ∉ l) (rest : List Char)
    (read : List Constraint) :
    (∃ read', (Text.lines ('/' :: '/' :: (l ++ '\n' :: rest))).foldl step (.going false read) =
      (Text.lines rest).foldl step (.going false read')) ∨
    ∃ result, (Text.lines ('/' :: '/' :: (l ++ '\n' :: rest))).foldl step (.going false read) =
      .ended result := by
  have hfirst : '\n' ∉ '/' :: '/' :: l := by simpa using hl
  have hlines : Text.lines ('/' :: '/' :: (l ++ '\n' :: rest)) =
      Text.dropFinalReturn ('/' :: '/' :: l) :: Text.lines rest :=
    Text.lines_append_feed hfirst rest
  rw [hlines, List.foldl_cons, step_dropFinalReturn]
  rcases step_of_text (visible_of_lineComment (trim_lineComment l)) read with
    ⟨read', hstep⟩ | ⟨result, hstep⟩
  · exact .inl ⟨read', by rw [hstep]⟩
  · exact .inr ⟨result, by rw [hstep, foldl_step_ended]⟩

/-- **Where the scan has a block comment open, one is open.**  The induction is on the text, which
is taken apart at its start: a blank, a comment of either kind, or code, behind which the scan has
ended. -/
theorem eq_blockComment_of_foldl {text : List Char} (hwhole : Text.WholeLines text)
    {read read' : List Constraint}
    (h : (Text.lines text).foldl step (.going false read) = .going true read') :
    Region.after .outside text = .blockComment := by
  induction hn : text.length using Nat.strong_induction_on generalizing text read with
  | _ n ih =>
    rcases text with _ | ⟨c, s⟩
    · cases h
    -- the text is not empty, so its first line ends with a line feed
    have hfeed : '\n' ∈ c :: s := List.mem_of_getLast? (hwhole.resolve_left (by simp))
    by_cases hblank : Text.isBlank c = true
    · rw [foldl_step_blank hblank] at h
      rw [Region.after_of_blank hblank]
      exact ih _ (by simp [← hn]) (wholeLines_of_append (s := [c]) hwhole) h rfl
    by_cases hblock : ['/', '*'] <+: c :: s
    · obtain ⟨s, hs⟩ := hblock
      rw [← hs] at h hn hwhole ⊢
      show Region.after .blockComment s = .blockComment
      rcases closing_cases s with hopen | ⟨body, rest, rfl, hbody⟩
      · rw [Region.after_blockComment, afterClose?_of_not_infix hopen]
      · rw [Region.after_blockComment, afterClose?_append hbody]
        have hrest : Text.WholeLines rest :=
          wholeLines_of_append (s := ['/', '*'] ++ body ++ ['*', '/']) (by simpa using hwhole)
        have hlength : rest.length < n := by
          simp only [List.length_append, List.length_cons] at hn
          omega
        exact ih _ hlength hrest ((foldl_step_comment hbody read rest).symm.trans h) rfl
    by_cases hline : ['/', '/'] <+: c :: s
    · obtain ⟨s, hs⟩ := hline
      rw [← hs] at h hn hwhole hfeed ⊢
      obtain ⟨l, rest, rfl, hl⟩ := List.eq_append_cons_of_mem
        ((List.mem_append.mp hfeed).resolve_left (by decide))
      show Region.after .lineComment (l ++ '\n' :: rest) = .blockComment
      have hrest : Text.WholeLines rest :=
        wholeLines_of_append (s := ['/', '/'] ++ l ++ ['\n']) (by simpa using hwhole)
      have hlength : rest.length < n := by
        simp only [List.length_append, List.length_cons] at hn
        omega
      rw [Region.after_lineComment hl]
      rcases foldl_step_lineComment hl rest read with ⟨read'', hstep⟩ | ⟨result, hstep⟩
      · exact ih _ hlength hrest (hstep.symm.trans h) rfl
      · cases hstep.symm.trans h
    · obtain ⟨l, rest, hsplit, hl⟩ := List.eq_append_cons_of_mem hfeed
      have hstart : l <+: c :: s := ⟨_, hsplit.symm⟩
      have hhead : ∃ d ∈ l.head?, Text.isBlank d = false := by
        cases l with
        | nil => exact absurd (List.cons.inj hsplit).1 (by rintro rfl; exact hblank (by decide))
        | cons d l => exact ⟨d, rfl, (List.cons.inj hsplit).1 ▸ by simpa using hblank⟩
      have hcode := foldl_step_of_code hl (.inr ⟨rest, rfl⟩) hhead
        (fun h => hblock (h.trans hstart)) (fun h => hline (h.trans hstart)) read
      rw [hsplit, hcode] at h
      cases h

/-- Outside block comments the scan has none open. -/
theorem after_ne_going_true {before : List Char} (hbefore : Text.WholeLines before)
    (h : Region.after .outside before ≠ .blockComment) (read : List Constraint) :
    after before ≠ .going true read :=
  fun hopen => h (eq_blockComment_of_foldl hbefore hopen)

end Scan

/-! ## 3. Lines that say nothing -/

/-- Whether the word of a directive ends where the given text follows. -/
def EndsWord (rest : List Char) : Prop :=
  rest = [] ∨ rest.head? = some ' ' ∨ rest.head? = some '\t'

theorem directive?_eq_none_iff {word line : List Char} :
    directive? word line = none ↔ ∀ rest, line = word ++ rest → ¬ EndsWord rest := by
  rw [directive?]
  constructor
  · rintro h rest rfl hends
    rw [Text.after?_eq_some_iff.mpr rfl] at h
    cases rest with
    | nil => cases h
    | cons c rest =>
      have hc : c = ' ' ∨ c = '\t' := by simpa [EndsWord] using hends
      dsimp only at h
      rw [if_pos hc] at h
      cases h
  · intro h
    cases hafter : Text.after? word line with
    | none => rfl
    | some rest =>
      have hends := h rest (Text.after?_eq_some_iff.mp hafter)
      cases rest with
      | nil => exact absurd (.inl rfl) hends
      | cons c rest =>
        dsimp only
        rw [if_neg fun hc => hends (.inr (by simpa using hc))]

/-- Whether a line is a line comment that is no directive. -/
def IsRemark (line : List Char) : Prop :=
  '\n' ∉ line ∧ ∃ body, Text.trim line = '/' :: '/' :: body ∧
    (∀ rest, body = "go:build".toList ++ rest → ¬ EndsWord rest) ∧
    ∀ rest, Text.trimStart body = "+build".toList ++ rest → ¬ EndsWord rest

namespace Scan

/-- A remark outside block comments changes nothing. -/
theorem step_of_isRemark {line : List Char} (h : IsRemark line) (read : List Constraint) :
    step (.going false read) line = .going false read := by
  obtain ⟨-, body, htrim, hgo, hplus⟩ := h
  have hword : "//go:build".toList = '/' :: '/' :: "go:build".toList := by decide
  have hslashes : Text.after? "//".toList ('/' :: '/' :: body) = some body :=
    Text.after?_eq_some_iff.mpr rfl
  have hgoBuild : directive? "//go:build".toList ('/' :: '/' :: body) = none :=
    directive?_eq_none_iff.mpr fun rest hrest => hgo rest (by simpa [hword] using hrest)
  have hplusBuild : directive? "+build".toList (Text.trimStart body) = none :=
    directive?_eq_none_iff.mpr hplus
  have hkind : Line.ofText ('/' :: '/' :: body) = .comment := by
    rw [Line.ofText, if_neg (by simp), hgoBuild]
    dsimp only
    rw [hslashes]
    dsimp only
    rw [hplusBuild]
  rw [step, visible_of_lineComment htrim]
  dsimp only
  rw [hkind]

/-! ## 4. Edits -/

theorem step_of_trim_eq {l l' : List Char} (h : Text.trim l = Text.trim l') (s : Scan) :
    s.step l = s.step l' := by
  cases s with
  | ended result => rfl
  | going inBlock read => rw [step, step, h]

/-- The first line of a text, and the rest. -/
theorem foldl_step_line_append {l rest : List Char} (hl : '\n' ∉ l) (hrest : EndsLine rest)
    (s : Scan) : (Text.lines (l ++ rest)).foldl step s =
      (Text.lines (rest.drop 1)).foldl step (s.step l) := by
  rcases hrest with rfl | ⟨t, rfl⟩
  · rw [List.append_nil, foldl_step_lines_of_not_mem hl]
    rfl
  · rw [Text.lines_append_feed hl, List.foldl_cons, step_dropFinalReturn]
    rfl

end Scan

/-- Whether a text consists of blanks and stands within a line. -/
def AreBlanks (s : List Char) : Prop := ∀ c ∈ s, Text.isBlank c = true ∧ c ≠ '\n'

/-- An edit of the layout of a text. -/
inductive Relaid : List Char → List Char → Prop where
  /-- Blanks are added at the start and at the end of a line. -/
  | padded {before line rest front back : List Char} (hbefore : Text.WholeLines before)
      (hline : '\n' ∉ line) (hrest : EndsLine rest) (hfront : AreBlanks front)
      (hback : AreBlanks back) :
      Relaid (before ++ (line ++ rest)) (before ++ (front ++ (line ++ back) ++ rest))
  /-- A blank line is added. -/
  | blankLine {before blanks rest : List Char} (hbefore : Text.WholeLines before)
      (hblanks : AreBlanks blanks) :
      Relaid (before ++ rest) (before ++ (blanks ++ '\n' :: rest))
  /-- A line comment that is no directive is added outside block comments. -/
  | remark {before line rest : List Char} (hbefore : Text.WholeLines before)
      (hplace : Region.after .outside before ≠ .blockComment) (hline : IsRemark line) :
      Relaid (before ++ rest) (before ++ (line ++ '\n' :: rest))

/-- The text with a carriage return before every line feed. -/
def withReturns (s : List Char) : List Char :=
  s.flatMap fun c => if c = '\n' then ['\r', '\n'] else [c]

theorem withReturns_of_not_mem {s : List Char} (h : '\n' ∉ s) : withReturns s = s := by
  induction s with
  | nil => rfl
  | cons c s ih =>
    rw [List.mem_cons, not_or] at h
    rw [withReturns, List.flatMap_cons, if_neg (Ne.symm h.1), List.singleton_append]
    exact congrArg (c :: ·) (ih h.2)

theorem withReturns_append_feed {l : List Char} (hl : '\n' ∉ l) (t : List Char) :
    withReturns (l ++ '\n' :: t) = l ++ ['\r'] ++ '\n' :: withReturns t := by
  have hfirst := withReturns_of_not_mem hl
  rw [withReturns] at hfirst
  rw [withReturns, List.flatMap_append, hfirst, List.flatMap_cons, if_pos rfl, List.append_assoc]
  rfl

namespace Scan

theorem step_pad {front back : List Char} (hfront : AreBlanks front) (hback : AreBlanks back)
    (l : List Char) (s : Scan) : s.step (front ++ (l ++ back)) = s.step l :=
  step_of_trim_eq (Text.trim_append_of_blank (fun c hc => (hfront c hc).1)
    (fun c hc => (hback c hc).1) l) s

/-- **An edit does not show in the scan.** -/
theorem after_eq_of_relaid {text text' : List Char} (h : Relaid text text') :
    after text' = after text := by
  cases h with
  | @padded before line rest front back hbefore hline hrest hfront hback =>
    have hpadded : '\n' ∉ front ++ (line ++ back) := by
      simp only [List.mem_append, not_or]
      exact ⟨fun h => (hfront _ h).2 rfl, hline, fun h => (hback _ h).2 rfl⟩
    rw [after_append hbefore, after_append hbefore, foldl_step_line_append hpadded hrest,
      foldl_step_line_append hline hrest, step_pad hfront hback]
  | @blankLine before blanks rest hbefore hblanks =>
    have hfeed : '\n' ∉ blanks := fun h => (hblanks _ h).2 rfl
    have hblank : Text.trim blanks = [] := by
      rw [Text.trim, Text.trimStart_eq_nil fun c hc => (hblanks c hc).1]
      rfl
    rw [after_append hbefore, after_append hbefore, Text.lines_append_feed hfeed, List.foldl_cons,
      step_dropFinalReturn, step_of_blank hblank]
  | @remark before line rest hbefore hplace hline =>
    rw [after_append hbefore, after_append hbefore, Text.lines_append_feed hline.1,
      List.foldl_cons, step_dropFinalReturn]
    cases hafter : after before with
    | ended result => rfl
    | going inBlock read =>
      cases inBlock with
      | true => exact absurd hafter (after_ne_going_true hbefore hplace read)
      | false => rw [step_of_isRemark hline]

/-- Carriage returns before line feeds do not show in the scan.  The induction is on the lines. -/
theorem foldl_step_withReturns (text : List Char) (s : Scan) :
    (Text.lines (withReturns text)).foldl step s = (Text.lines text).foldl step s := by
  induction hn : text.length using Nat.strong_induction_on generalizing text s with
  | _ n ih =>
    by_cases hfeed : '\n' ∈ text
    · obtain ⟨l, t, rfl, hl⟩ := List.eq_append_cons_of_mem hfeed
      have hlength : t.length < n := by
        rw [← hn, List.length_append, List.length_cons]
        omega
      have hreturn : '\n' ∉ l ++ ['\r'] := by simpa using hl
      have hblank : ∀ c ∈ ['\r'], Text.isBlank c = true := List.forall_mem_singleton.mpr rfl
      have hstep : s.step (l ++ ['\r']) = s.step l :=
        step_of_trim_eq (Text.trim_append_of_blank (List.forall_mem_nil _) hblank l) s
      rw [withReturns_append_feed hl, Text.lines_append_feed hreturn, Text.lines_append_feed hl,
        List.foldl_cons, List.foldl_cons, step_dropFinalReturn, step_dropFinalReturn, hstep,
        ih _ hlength _ _ rfl]
    · rw [withReturns_of_not_mem hfeed]

end Scan

/-- **The layout of a source text does not change its constraint.**  The result is the same, an
error included, with carriage returns before the line feeds, and after any number of edits. -/
theorem ofSource_eq_of_relaid :
    (∀ source : String,
      ofSource (String.ofList (withReturns source.toList)) = ofSource source) ∧
    ∀ source source' : String, Relation.ReflTransGen Relaid source.toList source'.toList →
      ofSource source' = ofSource source := by
  constructor
  · intro source
    rw [ofSource_eq_result_after, ofSource_eq_result_after, String.toList_ofList, Scan.after,
      Scan.foldl_step_withReturns]
    rfl
  · intro source source' h
    have hafter : ∀ {text text'}, Relation.ReflTransGen Relaid text text' →
        Scan.after text' = Scan.after text := by
      intro text text' h
      induction h with
      | refl => rfl
      | tail _ hedit ih => exact (Scan.after_eq_of_relaid hedit).trans ih
    rw [ofSource_eq_result_after, ofSource_eq_result_after, hafter h]

instance (s : List Char) : Decidable (AreBlanks s) :=
  decidable_of_iff (s.all fun c => Text.isBlank c && c != '\n') (by simp [AreBlanks])

/-- A source with a constraint line and a block comment. -/
def tidySource : String := "//+build a\n/*\n*/\nx\n"

/-- The same source with blanks around its first line, a blank line inside the block comment, and
behind the block a comment that is no directive. -/
def looseSource : String := "\t//+build a \n/*\n \n*/\n//+builder\nx\n"

theorem ofSource_eq_of_relaid_loosely :
    Relation.ReflTransGen Relaid tidySource.toList looseSource.toList ∧
      ofSource looseSource = ofSource tidySource := by
  have hpadded : Relaid tidySource.toList "\t//+build a \n/*\n*/\nx\n".toList :=
    @Relaid.padded [] "//+build a".toList "\n/*\n*/\nx\n".toList ['\t'] [' '] (.inl rfl)
      (by decide) (.inr ⟨_, rfl⟩) (by decide) (by decide)
  have hblankLine : Relaid "\t//+build a \n/*\n*/\nx\n".toList
      "\t//+build a \n/*\n \n*/\nx\n".toList :=
    @Relaid.blankLine "\t//+build a \n/*\n".toList [' '] "*/\nx\n".toList (by decide) (by decide)
  have hremark : Relaid "\t//+build a \n/*\n \n*/\nx\n".toList looseSource.toList := by
    have hline : IsRemark "//+builder".toList :=
      ⟨by decide, "+builder".toList, by decide, directive?_eq_none_iff.mp (by decide),
        directive?_eq_none_iff.mp (by decide)⟩
    exact @Relaid.remark "\t//+build a \n/*\n \n*/\n".toList "//+builder".toList "x\n".toList
      (by decide) (by decide) hline
  have hedits := ((Relation.ReflTransGen.single hpadded).tail hblankLine).tail hremark
  exact ⟨hedits, ofSource_eq_of_relaid.2 _ _ hedits⟩

end GoResolver.Constraint
