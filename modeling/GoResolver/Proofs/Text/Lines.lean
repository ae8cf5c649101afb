import GoResolver.Text.Blank
import Mathlib.Data.List.Basic
import Mathlib.Data.List.Infix
import Mathlib.Data.List.TakeWhile

/-!
# Trimming and cutting into lines

What trimming and cutting do to texts that were put together.

* A run of characters of one kind is taken off a text as it was put in front of it, if the text does
  not go on with another of them (`takeWhile_append_of_stops`).
* A character that is not blank holds what stands on its other side: trimming at one end of a text
  goes no further than to it (`trimStart_append_cons`, `trimEnd_append_cons`).  The two ends can
  therefore be trimmed in any order (`trimStart_trimEnd`).
* A text without a line feed is one line.  A line feed ends a line, whatever follows
  (`lines_append_feed`), so a text of whole lines has its own lines in front of any other text
  (`lines_append_of_wholeLines`).  Whoever trims lines sees the first line of a text as it stands
  there (`map_trim_head?_lines`).
-/

namespace GoResolver.Text

/-! ## 1. Runs -/

/-- **A run ends where a character of another kind stands.** -/
theorem takeWhile_append_of_stops {p : Char → Bool} {s r : List Char} (hs : ∀ c ∈ s, p c = true)
    (hr : ∀ c ∈ r.head?, p c = false) :
    (s ++ r).takeWhile p = s ∧ (s ++ r).dropWhile p = r := by
  rw [List.takeWhile_append_of_pos hs, List.dropWhile_append_of_pos hs]
  cases r with
  | nil => exact ⟨List.append_nil s, rfl⟩
  | cons c r =>
    have hc : ¬ p c = true := by
      rw [hr c rfl]
      exact Bool.false_ne_true
    rw [List.takeWhile_cons_of_neg hc, List.dropWhile_cons_of_neg hc, List.append_nil]
    exact ⟨rfl, rfl⟩

/-- Nothing is dropped from a text without such characters. -/
theorem dropWhile_of_forall {p : Char → Bool} {s : List Char} (h : ∀ c ∈ s, p c = false) :
    s.dropWhile p = s :=
  (takeWhile_append_of_stops (s := []) (fun _ hc => absurd hc List.not_mem_nil) fun c hc =>
    h c (List.mem_of_mem_head? hc)).2

/-! ## 2. Trimming -/

theorem trimStart_append_cons (s t : List Char) {c : Char} (hc : isBlank c = false) :
    trimStart (s ++ c :: t) = trimStart s ++ c :: t := by
  rw [trimStart, List.dropWhile_append]
  split
  · next hs =>
    have hnil : s.dropWhile isBlank = [] := by simpa using hs
    rw [trimStart, hnil, List.nil_append, List.dropWhile_cons_of_neg (by simp [hc])]
  · rfl

theorem trimStart_eq_nil {s : List Char} (h : ∀ c ∈ s, isBlank c = true) : trimStart s = [] :=
  List.dropWhile_eq_nil_iff.mpr h

theorem trimEnd_append_cons (s t : List Char) {c : Char} (hc : isBlank c = false) :
    trimEnd (s ++ c :: t) = s ++ c :: trimEnd t := by
  have hreverse : (s ++ c :: t).reverse = t.reverse ++ c :: s.reverse := by simp
  have hstart := trimStart_append_cons t.reverse s.reverse hc
  rw [trimStart, trimStart] at hstart
  rw [trimEnd, hreverse, hstart, trimEnd]
  simp

/-- A piece of text with no blank at its ends stays when the text around it is trimmed. -/
theorem trim_append_append {front s back : List Char} (hfront : ∀ c ∈ front, isBlank c = true)
    (hfirst : ∃ c ∈ s.head?, isBlank c = false) (hlast : ∃ d ∈ s.getLast?, isBlank d = false) :
    trim (front ++ (s ++ back)) = s ++ trimEnd back := by
  obtain ⟨c, hc, hcblank⟩ := hfirst
  obtain ⟨d, hd, hdblank⟩ := hlast
  obtain ⟨t, hst⟩ := List.head?_eq_some_iff.mp hc
  obtain ⟨u, hsu⟩ := List.getLast?_eq_some_iff.mp hd
  have hstart : trimStart (front ++ (s ++ back)) = s ++ back := by
    rw [hst, List.cons_append, trimStart_append_cons _ _ hcblank, trimStart_eq_nil hfront,
      List.nil_append]
  rw [trim, hstart, hsu, List.append_assoc, List.append_assoc, List.singleton_append,
    List.singleton_append, trimEnd_append_cons _ _ hdblank]

/-- A text without blanks stays as it is. -/
theorem trim_of_forall_not_blank {s : List Char} (h : ∀ c ∈ s, isBlank c = false) :
    trim s = s := by
  have hreverse : ∀ c ∈ s.reverse, isBlank c = false := fun c hc => h c (List.mem_reverse.mp hc)
  rw [trim, trimStart, dropWhile_of_forall h, trimEnd, dropWhile_of_forall hreverse,
    List.reverse_reverse]

/-- A blank at the end of a text is trimmed. -/
theorem trimEnd_concat (s : List Char) {c : Char} (hc : isBlank c = true) :
    trimEnd (s ++ [c]) = trimEnd s := by
  rw [trimEnd, List.reverse_append, List.reverse_singleton, List.singleton_append,
    List.dropWhile_cons_of_pos hc, trimEnd]

/-- A text is blank, or it has a first character that is not. -/
theorem trimStart_cases (s : List Char) :
    (trimStart s = [] ∧ trimEnd s = []) ∨
    ∃ a c t, s = a ++ c :: t ∧ trimStart a = [] ∧ isBlank c = false := by
  cases h : trimStart s with
  | nil =>
    have hblank : ∀ c ∈ s, isBlank c = true := List.dropWhile_eq_nil_iff.mp h
    refine .inl ⟨rfl, ?_⟩
    rw [trimEnd, List.reverse_eq_nil_iff, List.dropWhile_eq_nil_iff]
    intro c hc
    exact hblank c (List.mem_reverse.mp hc)
  | cons c t =>
    have hsplit : s.takeWhile isBlank ++ c :: t = s := by
      rw [← h, trimStart, List.takeWhile_append_dropWhile]
    have hfront : trimStart (s.takeWhile isBlank) = [] :=
      trimStart_eq_nil fun d hd => List.mem_takeWhile_imp hd
    have hc : isBlank c = false := by
      have hhead := List.head?_dropWhile_not isBlank s
      rw [trimStart] at h
      rwa [h] at hhead
    exact .inr ⟨_, c, t, hsplit.symm, hfront, hc⟩

/-- **Both ends of a text can be trimmed in any order.** -/
theorem trimStart_trimEnd (s : List Char) : trimStart (trimEnd s) = trim s := by
  rw [trim]
  rcases trimStart_cases s with ⟨hstart, hend⟩ | ⟨a, c, t, rfl, ha, hc⟩
  · rw [hstart, hend]
    rfl
  · rw [trimEnd_append_cons a t hc, trimStart_append_cons a _ hc, trimStart_append_cons a t hc, ha,
      List.nil_append, List.nil_append]
    exact (trimEnd_append_cons [] t hc).symm

theorem trimEnd_isPrefix (s : List Char) : trimEnd s <+: s := by
  rw [trimEnd, ← List.reverse_suffix, List.reverse_reverse]
  exact List.dropWhile_suffix _

/-- What trimming keeps of a text stands in the text. -/
theorem trim_infix (s : List Char) : trim s <:+: s := by
  rw [← trimStart_trimEnd]
  exact (List.dropWhile_suffix _).isInfix.trans (trimEnd_isPrefix s).isInfix

/-- A text stands between the blanks that trimming takes off. -/
theorem exists_blanks_trim (s : List Char) :
    ∃ front back, (∀ c ∈ front, isBlank c = true) ∧ (∀ c ∈ back, isBlank c = true) ∧
      s = front ++ (trim s ++ back) := by
  have hstart : s.takeWhile isBlank ++ trimStart s = s := List.takeWhile_append_dropWhile
  have hend : trim s ++ ((trimStart s).reverse.takeWhile isBlank).reverse = trimStart s := by
    rw [trim, trimEnd, ← List.reverse_append, List.takeWhile_append_dropWhile,
      List.reverse_reverse]
  refine ⟨s.takeWhile isBlank, ((trimStart s).reverse.takeWhile isBlank).reverse,
    fun c hc => List.mem_takeWhile_imp hc,
    fun c hc => List.mem_takeWhile_imp (List.mem_reverse.mp hc), ?_⟩
  rw [hend, hstart]

/-- Blanks around a text are trimmed. -/
theorem trim_append_of_blank {front back : List Char} (hfront : ∀ c ∈ front, isBlank c = true)
    (hback : ∀ c ∈ back, isBlank c = true) (s : List Char) :
    trim (front ++ (s ++ back)) = trim s := by
  have hstart : trimStart (front ++ (s ++ back)) = trimStart (s ++ back) :=
    List.dropWhile_append_of_pos hfront
  have hend : trimEnd (s ++ back) = trimEnd s := by
    rw [trimEnd, List.reverse_append,
      List.dropWhile_append_of_pos fun c hc => hback c (List.mem_reverse.mp hc), trimEnd]
  rw [trim, hstart, ← trim, ← trimStart_trimEnd, hend, trimStart_trimEnd]

/-- Trimming does not see whether the return at the end of a line was dropped. -/
theorem trim_dropFinalReturn (l : List Char) : trim (dropFinalReturn l) = trim l := by
  rw [dropFinalReturn]
  split
  · next hlast =>
    obtain ⟨front, rfl⟩ := List.getLast?_eq_some_iff.mp hlast
    have hreturn : isBlank '\r' = true := by decide
    rw [List.dropLast_concat, ← trimStart_trimEnd, ← trimStart_trimEnd, trimEnd_concat _ hreturn]
  · rfl

/-! ## 3. Lines -/

theorem linesFrom_append_feed {l : List Char} (h : '\n' ∉ l) (pending t : List Char) :
    linesFrom pending (l ++ '\n' :: t) = dropFinalReturn (pending.reverse ++ l) :: lines t := by
  induction l generalizing pending with
  | nil =>
    rw [List.nil_append, linesFrom, if_pos rfl, List.append_nil]
    rfl
  | cons c l ih =>
    rw [List.mem_cons, not_or] at h
    rw [List.cons_append, linesFrom, if_neg (Ne.symm h.1), ih h.2, List.reverse_cons,
      List.append_assoc, List.singleton_append]

/-- **A line feed ends a line.** -/
theorem lines_append_feed {l : List Char} (h : '\n' ∉ l) (t : List Char) :
    lines (l ++ '\n' :: t) = dropFinalReturn l :: lines t :=
  linesFrom_append_feed h [] t

theorem linesFrom_of_not_mem {l : List Char} (h : '\n' ∉ l) {pending : List Char}
    (hne : pending.reverse ++ l ≠ []) : linesFrom pending l = [pending.reverse ++ l] := by
  induction l generalizing pending with
  | nil =>
    rw [List.append_nil] at hne ⊢
    rw [linesFrom, if_neg (by simpa using hne)]
  | cons c l ih =>
    rw [List.mem_cons, not_or] at h
    have hpending : (c :: pending).reverse ++ l = pending.reverse ++ c :: l := by simp
    rw [linesFrom, if_neg (Ne.symm h.1), ih h.2 (by rwa [hpending]), hpending]

/-- A text without a line feed is one line. -/
theorem lines_of_not_mem {l : List Char} (h : '\n' ∉ l) (hne : l ≠ []) : lines l = [l] :=
  linesFrom_of_not_mem h hne

/-- Whether a text has a line in front, up to its first line feed or its end.  A return right before
the line feed is no part of the line. -/
def IsFirstLine (line text : List Char) : Prop :=
  '\n' ∉ line ∧ (text = line ∨ ∃ ending rest, (ending = ['\n'] ∨ ending = ['\r', '\n']) ∧
    text = line ++ (ending ++ rest))

/-- Every text has a first line. -/
theorem exists_isFirstLine (text : List Char) : ∃ line, IsFirstLine line text := by
  by_cases hfeed : '\n' ∈ text
  · obtain ⟨line, rest, rfl, hline⟩ := List.eq_append_cons_of_mem hfeed
    exact ⟨line, hline, .inr ⟨['\n'], rest, .inl rfl, rfl⟩⟩
  · exact ⟨text, hfeed, .inl rfl⟩

/-- Up to blanks, the first of a text's lines is its first line. -/
theorem map_trim_head?_lines {line text : List Char} (h : IsFirstLine line text) (hne : text ≠ []) :
    (lines text).head?.map trim = some (trim line) := by
  obtain ⟨hline, rfl | ⟨ending, rest, rfl | rfl, rfl⟩⟩ := h
  · rw [lines_of_not_mem hline hne]
    rfl
  · rw [List.singleton_append, lines_append_feed hline, List.head?_cons, Option.map_some,
      trim_dropFinalReturn]
  · have hreturn : '\n' ∉ line ++ ['\r'] := by simpa using hline
    have hfeed : line ++ (['\r', '\n'] ++ rest) = (line ++ ['\r']) ++ '\n' :: rest := by simp
    have hdrop : dropFinalReturn (line ++ ['\r']) = line := by simp [dropFinalReturn]
    rw [hfeed, lines_append_feed hreturn, hdrop]
    rfl

/-- Whether a text consists of whole lines. -/
def WholeLines (s : List Char) : Prop := s = [] ∨ s.getLast? = some '\n'

instance (s : List Char) : Decidable (WholeLines s) := inferInstanceAs (Decidable (_ ∨ _))

/-- **A text of whole lines has its own lines in front of any other text.** -/
theorem lines_append_of_wholeLines {s : List Char} (h : WholeLines s) (t : List Char) :
    lines (s ++ t) = lines s ++ lines t := by
  -- the induction is on the lines of `s`, the first of which ends at its first line feed
  induction hn : s.length using Nat.strong_induction_on generalizing s with
  | _ n ih =>
    rcases h with rfl | hlast
    · rfl
    · have hfeed : '\n' ∈ s := List.mem_of_getLast? hlast
      obtain ⟨l, s', rfl, hl⟩ := List.eq_append_cons_of_mem hfeed
      have hrest : WholeLines s' := by
        cases s' with
        | nil => exact .inl rfl
        | cons c s' =>
          rw [List.getLast?_append_of_ne_nil _ (by simp), List.getLast?_cons_cons] at hlast
          exact .inr hlast
      have hlength : s'.length < n := by
        rw [List.length_append, List.length_cons] at hn
        omega
      rw [List.append_assoc, List.cons_append, lines_append_feed hl, lines_append_feed hl,
        ih s'.length hlength hrest rfl, List.cons_append]

end GoResolver.Text
