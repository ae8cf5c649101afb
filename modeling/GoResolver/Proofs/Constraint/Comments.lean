import GoResolver.Proofs.Constraint.Header
import GoResolver.Proofs.Text.Lines

/-!
# What in a file cannot change its constraint

Only the header of a file counts, and block comments in the header do not.  Two edits of a source
text are therefore without effect:

1. A block comment may be put at the start of any line that the scan reaches outside block comments,
   whatever the comment holds, directives and line breaks included.
2. Behind the first line of code anything may be put.

The scan is read here as a machine that takes a line at a time (`Scan.step`).  Then each edit is a
fact about the state after some lines: the lines of a comment take the machine from a state outside
block comments back to the same state (`foldl_step_comment`), and after a line of code it stays
where it is (`foldl_step_ended`).  That a comment's own text can end it early is excluded by the one
condition on it, that `*/` is not in it; a body such as `*` or `/` needs no special care
(`afterClose?_append`).
-/

namespace GoResolver.Constraint

/-! ## 1. The scan as a machine -/

/-- How far a scan has come. -/
inductive Scan where
  /-- More lines are wanted; whether a block comment is open, and the constraint lines read. -/
  | going (inBlock : Bool) (read : List Constraint)
  /-- The result is found. -/
  | ended (result : Except Malformed (Option Constraint))

namespace Scan

/-- Takes one line. -/
def step : Scan → List Char → Scan
  | .ended result, _ => .ended result
  | .going inBlock read, line =>
    match visible inBlock (Text.trim line) with
    | .inside => .going true read
    | .text s =>
      match Line.ofText s with
      | .blank | .comment => .going false read
      | .code => .ended (.ok (ofLines read))
      | .goBuild e => .ended (ofExpression e)
      | .plusBuild body =>
        if body.isEmpty then .going false read
        else match ofPlusLine? body with
          | some c => .going false (read ++ [c])
          | none => .ended (.error (.plusLine (String.ofList body)))

/-- What is stated when no line follows. -/
def result : Scan → Except Malformed (Option Constraint)
  | .going _ read => .ok (ofLines read)
  | .ended result => result

/-- How far the scan has come after a text. -/
def after (text : List Char) : Scan := (Text.lines text).foldl step (.going false [])

theorem foldl_step_ended (result : Except Malformed (Option Constraint))
    (lines : List (List Char)) : lines.foldl step (.ended result) = .ended result := by
  induction lines with
  | nil => rfl
  | cons line lines ih => exact ih

end Scan

theorem scanHeader_eq_result_foldl (inBlock : Bool) (read : List Constraint)
    (lines : List (List Char)) :
    scanHeader inBlock read lines = (lines.foldl Scan.step (.going inBlock read)).result := by
  induction lines generalizing inBlock read with
  | nil => rfl
  | cons line lines ih =>
    have hended : ∀ result, (lines.foldl Scan.step (.ended result)).result = result := fun result =>
      congrArg Scan.result (Scan.foldl_step_ended result lines)
    rw [scanHeader, List.foldl_cons, Scan.step]
    cases visible inBlock (Text.trim line) with
    | inside => exact ih true read
    | text s =>
      dsimp only
      cases Line.ofText s with
      | blank => exact ih false read
      | comment => exact ih false read
      | code => exact (hended _).symm
      | goBuild e => exact (hended _).symm
      | plusBuild body =>
        dsimp only
        split
        · exact ih false read
        · cases ofPlusLine? body with
          | some c => exact ih false (read ++ [c])
          | none => exact (hended _).symm

/-- **The scan is the machine run over the lines of the source.** -/
theorem ofSource_eq_result_after (source : String) :
    ofSource source = (Scan.after source.toList).result :=
  scanHeader_eq_result_foldl false [] _

/-- The machine goes on after whole lines from where they have led it. -/
theorem Scan.after_append {before : List Char} (h : Text.WholeLines before) (rest : List Char) :
    Scan.after (before ++ rest) = (Text.lines rest).foldl step (Scan.after before) := by
  rw [Scan.after, Text.lines_append_of_wholeLines h, List.foldl_append]
  rfl

/-- The machine trims a line, so it does not see a return at the end of it. -/
theorem Scan.step_dropFinalReturn (s : Scan) (line : List Char) :
    s.step (Text.dropFinalReturn line) = s.step line := by
  cases s with
  | ended result => rfl
  | going inBlock read => rw [Scan.step, Scan.step, Text.trim_dropFinalReturn]

/-- A line that hides all of its text in a block comment opens or leaves open a block. -/
theorem Scan.step_of_inside {inBlock : Bool} {line : List Char}
    (h : visible inBlock (Text.trim line) = .inside) (read : List Constraint) :
    step (.going inBlock read) line = .going true read := by
  rw [step, h]

/-- Two lines that show the same text outside block comments are taken alike. -/
theorem Scan.step_of_visible_eq {inBlock inBlock' : Bool} {line line' : List Char}
    (h : visible inBlock (Text.trim line) = visible inBlock' (Text.trim line'))
    (read : List Constraint) :
    step (.going inBlock read) line = step (.going inBlock' read) line' := by
  rw [step, step, h]

/-! ## 2. The end of a block comment -/

/-- What ends a block comment. -/
def closing : List Char := ['*', '/']

theorem afterClose?_cons {c : Char} {s : List Char} (h : ¬ closing <+: c :: s) :
    afterClose? (c :: s) = afterClose? s := by
  rw [afterClose?]
  rintro r rfl rfl
  exact h ⟨r, rfl⟩

/-- **A block comment ends at the first `*/`**, and nothing of a body without one can end it early,
not even together with the `*/` that follows. -/
theorem afterClose?_append {body : List Char} (h : ¬ closing <:+: body) (rest : List Char) :
    afterClose? (body ++ '*' :: '/' :: rest) = some rest := by
  induction body with
  | nil => rfl
  | cons c body ih =>
    have hbody : ¬ closing <:+: body := fun hinside => h (hinside.trans (List.infix_cons_iff.mpr
      (.inr (List.infix_refl body))))
    have hhead : ¬ closing <+: c :: (body ++ '*' :: '/' :: rest) := by
      rintro ⟨t, ht⟩
      obtain ⟨hc, ht⟩ := List.cons.inj ht
      cases body with
      | nil => cases (List.cons.inj ht).1
      | cons d body =>
        refine h ⟨[], body, ?_⟩
        rw [List.nil_append, closing, List.cons_append, List.singleton_append, hc,
          (List.cons.inj ht).1]
    rw [List.cons_append, afterClose?_cons hhead, ih hbody]

theorem afterClose?_of_not_infix {s : List Char} (h : ¬ closing <:+: s) : afterClose? s = none := by
  induction s with
  | nil => rfl
  | cons c s ih =>
    rw [List.infix_cons_iff, not_or] at h
    rw [afterClose?_cons h.1, ih h.2]

/-! ## 3. Lines with a comment -/

variable {body : List Char}

theorem trimEnd_append_closing (s rest : List Char) :
    Text.trimEnd (s ++ '*' :: '/' :: rest) = s ++ '*' :: '/' :: Text.trimEnd rest := by
  rw [Text.trimEnd_append_cons s ('/' :: rest) (by decide)]
  exact congrArg (s ++ '*' :: ·) (Text.trimEnd_append_cons [] rest (by decide))

theorem dropComments_of_closed (h : ¬ closing <:+: body) (rest : List Char) :
    dropComments ('/' :: '*' :: (body ++ '*' :: '/' :: rest)) =
      dropComments (Text.trimStart rest) := by
  rw [dropComments, afterClose?_append h]

/-- A line shows what stands behind the end of the block that is open at its start. -/
theorem visible_of_closed (h : ¬ closing <:+: body) (rest : List Char) :
    visible true (Text.trim (body ++ '*' :: '/' :: rest)) = visible false (Text.trim rest) := by
  have hstart : ¬ closing <:+: Text.trimStart body := fun hinside =>
    h (hinside.trans (List.dropWhile_suffix Text.isBlank).isInfix)
  have htrim : Text.trim (body ++ '*' :: '/' :: rest) =
      Text.trimStart body ++ '*' :: '/' :: Text.trimEnd rest := by
    rw [Text.trim, Text.trimStart_append_cons body _ (by decide), trimEnd_append_closing]
  rw [visible, if_pos rfl, htrim, afterClose?_append hstart]
  dsimp only
  rw [Text.trimStart_trimEnd]
  rfl

/-- A line shows what stands behind a comment at its start. -/
theorem visible_of_comment (h : ¬ closing <:+: body) (rest : List Char) :
    visible false (Text.trim ('/' :: '*' :: (body ++ '*' :: '/' :: rest))) =
      visible false (Text.trim rest) := by
  have htrim : Text.trim ('/' :: '*' :: (body ++ '*' :: '/' :: rest)) =
      '/' :: '*' :: (body ++ '*' :: '/' :: Text.trimEnd rest) := by
    rw [Text.trim, Text.trimStart_cons_of_not_blank _ (by decide)]
    exact trimEnd_append_closing ('/' :: '*' :: body) rest
  rw [visible, if_neg Bool.false_ne_true, htrim, dropComments_of_closed h,
    Text.trimStart_trimEnd]
  rfl

/-- Nothing is seen of a line that stands in a block. -/
theorem visible_of_open (h : ¬ closing <:+: body) : visible true (Text.trim body) = .inside := by
  have hbody : ¬ closing <:+: Text.trim body :=
    fun hinside => h (hinside.trans (Text.trim_infix body))
  rw [visible, if_pos rfl, afterClose?_of_not_infix hbody]

/-- Nothing is seen of a line whose comment is not closed on it. -/
theorem visible_of_opening (h : ¬ closing <:+: body) :
    visible false (Text.trim ('/' :: '*' :: body)) = .inside := by
  have htrim : Text.trim ('/' :: '*' :: body) = '/' :: '*' :: Text.trimEnd body := by
    rw [Text.trim, Text.trimStart_cons_of_not_blank _ (by decide)]
    exact Text.trimEnd_append_cons ['/'] body (by decide)
  have hbody : ¬ closing <:+: Text.trimEnd body := fun hinside =>
    h (hinside.trans (Text.trimEnd_isPrefix body).isInfix)
  rw [visible, if_neg Bool.false_ne_true, htrim, dropComments, afterClose?_of_not_infix hbody]

/-! ## 4. The lines of a comment -/

namespace Scan

/-- A blank line changes nothing, whether a block comment is open or not. -/
theorem step_of_blank {l : List Char} (h : Text.trim l = []) (s : Scan) : s.step l = s := by
  cases s with
  | ended result => rfl
  | going inBlock read =>
    cases inBlock with
    | true =>
      have hvisible : visible true (Text.trim l) = .inside := by rw [h]; rfl
      exact step_of_inside hvisible read
    | false =>
      have hvisible : visible false (Text.trim l) = .text [] := by
        rw [h, visible, if_neg Bool.false_ne_true, dropComments]
        exact fun r hr => List.cons_ne_nil _ _ hr.symm
      rw [step, hvisible]
      rfl

/-- A line is taken as it stands.  The empty one is no line, and need not be there. -/
theorem foldl_step_lines_of_not_mem {l : List Char} (h : '\n' ∉ l) (s : Scan) :
    (Text.lines l).foldl step s = s.step l := by
  cases l with
  | nil => exact (step_of_blank rfl s).symm
  | cons c l =>
    rw [Text.lines_of_not_mem h (List.cons_ne_nil c l)]
    rfl

/-- A beginning without a line feed belongs to the first line of the rest.  If it makes no
difference for that line, it makes none at all. -/
theorem foldl_step_append {front : List Char} (hfront : '\n' ∉ front) (hne : front ≠ [])
    {inBlock : Bool} {read : List Constraint} (rest : List Char)
    (h : ∀ l, visible inBlock (Text.trim (front ++ l)) = visible false (Text.trim l)) :
    (Text.lines (front ++ rest)).foldl step (.going inBlock read) =
      (Text.lines rest).foldl step (.going false read) := by
  have hstep : ∀ l, step (.going inBlock read) (front ++ l) = step (.going false read) l :=
    fun l => step_of_visible_eq (h l) read
  by_cases hfeed : '\n' ∈ rest
  · obtain ⟨l, rest', rfl, hl⟩ := List.eq_append_cons_of_mem hfeed
    have hnot : '\n' ∉ front ++ l := fun hmem => (List.mem_append.mp hmem).elim hfront hl
    rw [← List.append_assoc, Text.lines_append_feed hnot, Text.lines_append_feed hl,
      List.foldl_cons, List.foldl_cons, step_dropFinalReturn, step_dropFinalReturn, hstep]
  · have hnot : '\n' ∉ front ++ rest := fun hmem => (List.mem_append.mp hmem).elim hfront hfeed
    rw [foldl_step_lines_of_not_mem hfeed,
      Text.lines_of_not_mem hnot (List.append_ne_nil_of_left_ne_nil hne rest)]
    exact hstep rest

/-- **The rest of an open block leads outside, to where the block was opened.**  The induction is on
the lines of the block. -/
theorem foldl_step_block (h : ¬ closing <:+: body) (read : List Constraint) (rest : List Char) :
    (Text.lines (body ++ '*' :: '/' :: rest)).foldl step (.going true read) =
      (Text.lines rest).foldl step (.going false read) := by
  induction hn : body.length using Nat.strong_induction_on generalizing body with
  | _ n ih =>
    by_cases hfeed : '\n' ∈ body
    · obtain ⟨l, body', rfl, hl⟩ := List.eq_append_cons_of_mem hfeed
      have hline : ¬ closing <:+: l := fun hinside =>
        h (hinside.trans (List.prefix_append l _).isInfix)
      have hrest : ¬ closing <:+: body' := fun hinside =>
        h (hinside.trans ((List.suffix_cons '\n' body').trans (List.suffix_append l _)).isInfix)
      have hlength : body'.length < n := by
        rw [List.length_append, List.length_cons] at hn
        omega
      rw [List.append_assoc, List.cons_append, Text.lines_append_feed hl, List.foldl_cons,
        step_dropFinalReturn, step_of_inside (visible_of_open hline), ih _ hlength hrest rfl]
    · have hsplit : body ++ '*' :: '/' :: rest = (body ++ closing) ++ rest := by
        rw [closing, List.append_assoc]
        rfl
      have hfront : '\n' ∉ body ++ closing := by simpa [closing] using hfeed
      rw [hsplit]
      refine foldl_step_append hfront (by simp [closing]) rest fun l => ?_
      rw [closing, List.append_assoc]
      exact visible_of_closed h l

/-- **A comment at the start of a line outside block comments makes no difference.** -/
theorem foldl_step_comment (h : ¬ closing <:+: body) (read : List Constraint) (rest : List Char) :
    (Text.lines ('/' :: '*' :: (body ++ '*' :: '/' :: rest))).foldl step (.going false read) =
      (Text.lines rest).foldl step (.going false read) := by
  by_cases hfeed : '\n' ∈ body
  · obtain ⟨l, body', rfl, hl⟩ := List.eq_append_cons_of_mem hfeed
    have hline : ¬ closing <:+: l := fun hinside =>
      h (hinside.trans (List.prefix_append l _).isInfix)
    have hrest : ¬ closing <:+: body' := fun hinside =>
      h (hinside.trans ((List.suffix_cons '\n' body').trans (List.suffix_append l _)).isInfix)
    have hfirst : '\n' ∉ '/' :: '*' :: l := by simpa using hl
    have hsplit : '/' :: '*' :: (l ++ '\n' :: body' ++ '*' :: '/' :: rest) =
        ('/' :: '*' :: l) ++ '\n' :: (body' ++ '*' :: '/' :: rest) := by simp
    rw [hsplit, Text.lines_append_feed hfirst, List.foldl_cons, step_dropFinalReturn,
      step_of_inside (visible_of_opening hline), foldl_step_block hrest]
  · have hsplit : '/' :: '*' :: (body ++ '*' :: '/' :: rest) =
        ('/' :: '*' :: (body ++ closing)) ++ rest := by simp [closing]
    have hfront : '\n' ∉ '/' :: '*' :: (body ++ closing) := by simpa [closing] using hfeed
    rw [hsplit]
    refine foldl_step_append hfront (List.cons_ne_nil _ _) rest fun l => ?_
    have hline : '/' :: '*' :: (body ++ closing) ++ l =
        '/' :: '*' :: (body ++ '*' :: '/' :: l) := by simp [closing]
    rw [hline]
    exact visible_of_comment h l

end Scan

/-! ## 5. The first line of code -/

/-- What is left of a text without the closed block comments at its start. -/
inductive Uncovers : (text rest : List Char) → Prop where
  | here {s : List Char} (h : ¬ ['/', '*'] <+: s) : Uncovers s s
  | comment {body rest s : List Char} (hbody : ¬ closing <:+: body)
      (h : Uncovers (Text.trimStart rest) s) :
      Uncovers ('/' :: '*' :: (body ++ '*' :: '/' :: rest)) s

theorem Uncovers.dropComments_eq {text s : List Char} (h : Uncovers text s) :
    dropComments text = .text s := by
  induction h with
  | @here s h =>
    rw [dropComments]
    rintro r rfl
    exact h ⟨r, rfl⟩
  | comment hbody _ ih => rw [dropComments_of_closed hbody, ih]

/-- Whether a line has code on it, behind the end of the block that is open at its start, if one is,
and behind further block comments.  The first of the code is no line comment. -/
def ShowsCode (inBlock : Bool) (line : List Char) : Prop :=
  ∃ text code, Uncovers text code ∧ code ≠ [] ∧ ¬ ['/', '/'] <+: code ∧
    if inBlock then ∃ body rest, ¬ closing <:+: body ∧
      Text.trim line = body ++ '*' :: '/' :: rest ∧ text = Text.trimStart rest
    else text = Text.trim line

theorem ofText_of_not_comment {s : List Char} (hne : s ≠ []) (h : ¬ ['/', '/'] <+: s) :
    Line.ofText s = .code := by
  have hslashes : Text.after? "//".toList s = none := by
    rw [Option.eq_none_iff_forall_ne_some]
    intro r hr
    exact h ⟨r, (Text.after?_eq_some_iff.mp hr).symm⟩
  have hword : directive? "//go:build".toList s = none := by
    have hafter : Text.after? "//go:build".toList s = none := by
      rw [Option.eq_none_iff_forall_ne_some]
      intro r hr
      refine h ⟨"go:build".toList ++ r, ?_⟩
      rw [Text.after?_eq_some_iff.mp hr]
      rfl
    rw [directive?, hafter]
  rw [Line.ofText, if_neg (by simpa using hne), hword]
  dsimp only
  rw [hslashes]

/-- **A line of code ends the scan.** -/
theorem Scan.step_of_showsCode {inBlock : Bool} {line : List Char} (h : ShowsCode inBlock line)
    (read : List Constraint) :
    step (.going inBlock read) line = .ended (.ok (ofLines read)) := by
  obtain ⟨text, code, huncovers, hne, hcomment, htext⟩ := h
  have hvisible : visible inBlock (Text.trim line) = .text code := by
    cases inBlock with
    | false =>
      rw [if_neg Bool.false_ne_true] at htext
      rw [visible, if_neg Bool.false_ne_true, ← htext, huncovers.dropComments_eq]
    | true =>
      rw [if_pos rfl] at htext
      obtain ⟨body, rest, hbody, htrim, rfl⟩ := htext
      rw [visible, if_pos rfl, htrim, afterClose?_append hbody]
      exact huncovers.dropComments_eq
  rw [step, hvisible]
  dsimp only
  rw [ofText_of_not_comment hne hcomment]

/-- A blank line has no code on it. -/
theorem ShowsCode.ne_nil {inBlock : Bool} {line : List Char} (h : ShowsCode inBlock line) :
    line ≠ [] := by
  rintro rfl
  obtain ⟨text, code, huncovers, hne, -, htext⟩ := h
  have hblank : Text.trim [] = [] := rfl
  rw [hblank] at htext
  cases inBlock with
  | false =>
    rw [if_neg Bool.false_ne_true] at htext
    subst htext
    cases huncovers with
    | here => exact hne rfl
  | true =>
    rw [if_pos rfl] at htext
    obtain ⟨body, rest, -, hsplit, -⟩ := htext
    simp at hsplit

/-- Whether a text starts behind the end of a line: a line feed comes first, or nothing comes. -/
def EndsLine (rest : List Char) : Prop := rest = [] ∨ ∃ t, rest = '\n' :: t

theorem Scan.foldl_step_code {inBlock : Bool} {line : List Char} (hline : '\n' ∉ line)
    (h : ShowsCode inBlock line) (read : List Constraint) {rest : List Char}
    (hrest : EndsLine rest) :
    (Text.lines (line ++ rest)).foldl step (.going inBlock read) =
      .ended (.ok (ofLines read)) := by
  rcases hrest with rfl | ⟨t, rfl⟩
  · rw [List.append_nil, Text.lines_of_not_mem hline h.ne_nil, List.foldl_cons,
      step_of_showsCode h]
    rfl
  · rw [Text.lines_append_feed hline, List.foldl_cons, step_dropFinalReturn, step_of_showsCode h,
      foldl_step_ended]

/-! ## 6. Edits of a source text -/

/-- **Only the header counts, and block comments in it do not.**  Let a text of whole lines stand
before a place that the scan reaches.

* If the place is outside block comments, a block comment can be put there, with any body that does
  not hold `*/`.
* If the line there has code on it, outside block comments, then anything can follow that line: the
  constraint is the one that the lines before it state. -/
theorem ofSource_depends_on_header (before : String) (hbefore : Text.WholeLines before.toList) :
    (∀ read, Scan.after before.toList = .going false read →
      ∀ body rest : String, ¬ "*/".toList <:+: body.toList →
        ofSource (before ++ "/*" ++ body ++ "*/" ++ rest) = ofSource (before ++ rest)) ∧
    ∀ inBlock read, Scan.after before.toList = .going inBlock read →
      ∀ line : String, '\n' ∉ line.toList → ShowsCode inBlock line.toList →
        ∀ rest rest' : String, EndsLine rest.toList → EndsLine rest'.toList →
          ofSource (before ++ line ++ rest) = ofSource (before ++ line ++ rest') ∧
          ofSource (before ++ line ++ rest) = .ok (ofLines read) := by
  have hopen : "/*".toList = ['/', '*'] := by decide
  have hclose : "*/".toList = ['*', '/'] := by decide
  constructor
  · intro read hreached body rest hbody
    have hlist : (before ++ "/*" ++ body ++ "*/" ++ rest).toList =
        before.toList ++ '/' :: '*' :: (body.toList ++ '*' :: '/' :: rest.toList) := by
      simp [String.toList_append, hopen, hclose]
    have hplain : (before ++ rest).toList = before.toList ++ rest.toList := String.toList_append
    rw [ofSource_eq_result_after, ofSource_eq_result_after, hlist, hplain,
      Scan.after_append hbefore, Scan.after_append hbefore, hreached,
      Scan.foldl_step_comment (by rwa [hclose] at hbody)]
  · intro inBlock read hreached line hline hcode rest rest' hrest hrest'
    have hresult : ∀ r : String, EndsLine r.toList →
        ofSource (before ++ line ++ r) = .ok (ofLines read) := by
      intro r hr
      have hlist : (before ++ line ++ r).toList =
          before.toList ++ (line.toList ++ r.toList) := by
        simp [String.toList_append]
      rw [ofSource_eq_result_after, hlist, Scan.after_append hbefore, hreached,
        Scan.foldl_step_code hline hcode read hr]
      rfl
    exact ⟨(hresult rest hrest).trans (hresult rest' hrest').symm, hresult rest hrest⟩

/-- Behind a constraint line, a comment with a directive in it makes no difference, and neither does
a directive behind code.  The code stands behind the end of a block and one more comment. -/
theorem ofSource_depends_on_header_of_linux :
    Text.WholeLines "// +build linux\n".toList ∧
      Text.WholeLines "// +build linux\n/* notes\n".toList ∧
      Scan.after "// +build linux\n".toList = .going false [.tag "linux"] ∧
      Scan.after "// +build linux\n/* notes\n".toList = .going true [.tag "linux"] ∧
      ¬ "*/".toList <:+: "/\n//go:build arm\n*".toList ∧
      ShowsCode true "*/ /**/ package x".toList ∧
      ofSource ("// +build linux\n" ++ "/*" ++ "/\n//go:build arm\n*" ++ "*/" ++ "package x\n") =
        ofSource ("// +build linux\n" ++ "package x\n") ∧
      ofSource ("// +build linux\n/* notes\n" ++ "*/ /**/ package x" ++ "\n//go:build arm\n") =
        .ok (some (.tag "linux")) := by
  have hplus : Scan.step (.going false []) "// +build linux".toList =
      .going false [.tag "linux"] := by
    have hshown : Uncovers "// +build linux".toList "// +build linux".toList := .here (by decide)
    have hvisible : visible false (Text.trim "// +build linux".toList) =
        .text "// +build linux".toList := hshown.dropComments_eq
    have hkind : Line.ofText "// +build linux".toList = .plusBuild "linux".toList := by
      decide +kernel
    have hwords : Text.words "linux".toList = ["linux".toList] := by decide +kernel
    have hread : ofPlusLine? "linux".toList = some (.tag "linux") := by
      rw [ofPlusLine?, hwords]
      rfl
    rw [Scan.step, hvisible]
    dsimp only
    rw [hkind]
    dsimp only
    rw [if_neg (by decide), hread]
    rfl
  have hfirst : Scan.after "// +build linux\n".toList = .going false [.tag "linux"] := by
    have hlines : Text.lines "// +build linux\n".toList = ["// +build linux".toList] := by
      decide +kernel
    rw [Scan.after, hlines, List.foldl_cons, hplus]
    rfl
  have hsecond : Scan.after "// +build linux\n/* notes\n".toList = .going true [.tag "linux"] := by
    have hlines : Text.lines "// +build linux\n/* notes\n".toList =
        ["// +build linux".toList, "/* notes".toList] := by decide +kernel
    rw [Scan.after, hlines, List.foldl_cons, hplus, List.foldl_cons]
    have hnotes : ¬ closing <:+: " notes".toList := by decide
    exact Scan.step_of_inside (visible_of_opening hnotes) _
  have hbody : ¬ "*/".toList <:+: "/\n//go:build arm\n*".toList := by decide
  have hcode : ShowsCode true "*/ /**/ package x".toList := by
    have hempty : ¬ closing <:+: [] := by decide
    have huncovers : Uncovers "/**/ package x".toList "package x".toList :=
      .comment hempty (.here (by decide))
    exact ⟨_, _, huncovers, by decide, by decide, [], " /**/ package x".toList, by decide, rfl, rfl⟩
  refine ⟨.inr rfl, .inr rfl, hfirst, hsecond, hbody, hcode, ?_, ?_⟩
  · exact (ofSource_depends_on_header _ (.inr rfl)).1 _ hfirst _ _ hbody
  · exact ((ofSource_depends_on_header _ (.inr rfl)).2 _ _ hsecond _ (by decide) hcode _ ""
      (.inr ⟨_, rfl⟩) (.inl rfl)).2

end GoResolver.Constraint
