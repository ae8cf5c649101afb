import GoResolver.Toml.Quoted
import GoResolver.Toml.Writer
import Mathlib.Data.List.Basic

/-!
# Strings are read back

A string is written in one of four styles, and whatever style it is, the reader finds the string
again (`string?_stringText`).  What follows must not start with a quote, for that one would still
belong to the string.

1. A quote in a string with triple quotes may be the first of the closing ones.  The reader decides
   by the two characters after it.  Where up to two quotes stand right before the closing ones, the
   first of them looks like a closing one already, and `closing?` counts what is left over
   (`closing?_replicate`).
2. Without escapes, every character is read as it is written (`literalFrom_append`).
3. With escapes, the reader takes one character's escape at a time (`basicFrom_escaped`), and
   between two characters it is always in the same mode.

The style tells which characters do not occur, and each style is read back under what it says
(`styleOf_cases`).
-/

namespace GoResolver.Toml

/-! ## 1. Closing quotes -/

/-- Whether a text does not go on with a quote. -/
def NoQuote (rest : List Char) : Prop := ∀ c ∈ rest.head?, c ≠ '"' ∧ c ≠ '\''

theorem closing?_false (quote : Char) (s : List Char) : closing? quote false s = some ([], s) := rfl

/-- Up to two quotes before the closing ones belong to the string. -/
theorem closing?_replicate {quote : Char} {k : Nat} (hk : k ≤ 2) {rest : List Char}
    (hrest : rest.head? ≠ some quote) :
    closing? quote true (List.replicate (k + 2) quote ++ rest) =
      some (List.replicate k quote, rest) := by
  have hnone : (rest.take (2 - k)).takeWhile (· = quote) = [] := by
    cases rest with
    | nil => rw [List.take_nil, List.takeWhile_nil]
    | cons c rest =>
      have hc : c ≠ quote := by simpa using hrest
      cases 2 - k with
      | zero => rfl
      | succ n => rw [List.take_succ_cons, List.takeWhile_cons_of_neg (by simpa using hc)]
  have hmore : ((List.replicate k quote ++ rest).take 2).takeWhile (· = quote) =
      List.replicate k quote := by
    rw [List.take_append, List.length_replicate, List.take_replicate, Nat.min_eq_right hk,
      List.takeWhile_append_of_pos (by simp), hnone, List.append_nil]
  rw [List.replicate_succ, List.replicate_succ, List.cons_append, List.cons_append, closing?,
    if_pos rfl]
  dsimp only
  rw [if_pos ⟨rfl, rfl⟩, hmore, List.length_replicate, List.drop_left' List.length_replicate]

/-- A quote that is followed by another character does not close the string. -/
theorem closing?_cons_of_ne {quote a : Char} (h : a ≠ quote) (s : List Char) :
    closing? quote true (a :: s) = none := by
  cases s with
  | nil => rfl
  | cons b s => rw [closing?, if_pos rfl, if_neg fun hquotes => h hquotes.1]

theorem closing?_cons_cons_of_ne {quote b : Char} (h : b ≠ quote) (s : List Char) :
    closing? quote true (quote :: b :: s) = none := by
  rw [closing?, if_pos rfl, if_neg fun hquotes => h hquotes.2]

/-! ## 2. Single quotes -/

/-- The characters that a string without escapes takes as they are. -/
def IsLiteral (triple : Bool) (c : Char) : Prop := isPlain c = true ∨ (triple = true ∧ c = '\n')

/-- A character that is not a control character and no line break may stand anywhere. -/
theorem isPlain_of_not_isControl {c : Char} (hcontrol : isControl c = false) (hfeed : c ≠ '\n') :
    isPlain c = true := by
  by_cases htab : c = '\t'
  · rw [htab]
    rfl
  · simp only [isControl, Bool.or_eq_false_iff, Bool.and_eq_false_iff, decide_eq_false_iff_not,
      bne_eq_false_iff_eq, beq_eq_false_iff_ne] at hcontrol
    have hlow : 0x20 ≤ c.toNat := by
      rcases hcontrol.1 with (h | h) | h
      · omega
      · exact absurd h htab
      · exact absurd h hfeed
    rw [isPlain, Bool.or_eq_true, Bool.and_eq_true, decide_eq_true_eq, bne_iff_ne]
    exact .inr ⟨hlow, hcontrol.2⟩

theorem literalFrom_cons {triple : Bool} {c : Char} (hquote : c ≠ '\'')
    (hc : IsLiteral triple c) (s : List Char) :
    literalFrom triple (c :: s) = prepend c (literalFrom triple s) := by
  rw [literalFrom, if_neg hquote]
  split
  · rfl
  · next hfeed =>
    have hplain : isPlain c = true := hc.resolve_right fun h => hfeed h
    have hreturn : ¬ (triple = true ∧ c = '\r' ∧ startsWithFeed s = true) := by
      rintro ⟨-, rfl, -⟩
      exact absurd hplain (by decide)
    rw [if_neg hreturn, if_pos hplain]

theorem literalFrom_of_closing {triple : Bool} {s : List Char} {p : List Char × List Char}
    (h : closing? '\'' triple s = some p) : literalFrom triple ('\'' :: s) = some p := by
  rw [literalFrom, if_pos rfl, h]

theorem literalFrom_of_not_closing {triple : Bool} {s : List Char}
    (h : closing? '\'' triple s = none) :
    literalFrom triple ('\'' :: s) = prepend '\'' (literalFrom triple s) := by
  rw [literalFrom, if_pos rfl, h]

theorem le_longestRun (c : Char) (run : Nat) (s : List Char) : run ≤ longestRun c run s := by
  induction s generalizing run with
  | nil => exact Nat.le_refl run
  | cons a s ih =>
    rw [longestRun]
    split
    · have hnext := ih (run + 1)
      omega
    · exact Nat.le_max_left run _

theorem longestRun_mono (c : Char) {run run' : Nat} (h : run ≤ run') (s : List Char) :
    longestRun c run s ≤ longestRun c run' s := by
  induction s generalizing run run' with
  | nil => exact h
  | cons a s ih =>
    rw [longestRun, longestRun]
    split
    · exact ih (Nat.succ_le_succ h)
    · omega

/-- No run is longer in a part of a text. -/
theorem longestRun_le_cons (c a : Char) (run : Nat) (s : List Char) :
    longestRun c 0 s ≤ longestRun c run (a :: s) := by
  rw [longestRun]
  split
  · exact longestRun_mono c (Nat.zero_le _) s
  · exact Nat.le_max_right run _

/-- A quote in a string with triple quotes closes it when no more than quotes are left of it. -/
theorem closing?_literal {s rest : List Char} (hrun : longestRun '\'' 1 s ≤ 2)
    (hrest : rest.head? ≠ some '\'') :
    closing? '\'' true (s ++ (tripled '\'' ++ rest)) = none ∨
      closing? '\'' true (s ++ (tripled '\'' ++ rest)) = some ('\'' :: s, rest) := by
  match s with
  | [] => exact .inr (closing?_replicate (k := 1) (by decide) hrest)
  | a :: s =>
    by_cases ha : a = '\''
    · subst ha
      match s with
      | [] => exact .inr (closing?_replicate (k := 2) (by decide) hrest)
      | b :: s =>
        have hb : b ≠ '\'' := by
          rintro rfl
          have hthree := le_longestRun '\'' (1 + 1 + 1) s
          rw [longestRun, if_pos rfl, longestRun, if_pos rfl] at hrun
          omega
        exact .inl (closing?_cons_cons_of_ne hb _)
    · exact .inl (closing?_cons_of_ne ha _)

/-- **A string without escapes is read as it is written**, between triple quotes. -/
theorem literalFrom_true_append {s rest : List Char} (hs : ∀ c ∈ s, IsLiteral true c)
    (hrun : longestRun '\'' 0 s ≤ 2) (hrest : NoQuote rest) :
    literalFrom true (s ++ (tripled '\'' ++ rest)) = some (s, rest) := by
  have hhead : rest.head? ≠ some '\'' := fun h => (hrest _ h).2 rfl
  induction s with
  | nil =>
    exact literalFrom_of_closing (closing?_replicate (k := 0) (Nat.zero_le 2) hhead)
  | cons c s ih =>
    obtain ⟨hc, hs⟩ := List.forall_mem_cons.mp hs
    have hbelow := ih hs (Nat.le_trans (longestRun_le_cons '\'' c 0 s) hrun)
    rw [List.cons_append]
    by_cases hquote : c = '\''
    · subst hquote
      rw [longestRun, if_pos rfl] at hrun
      rcases closing?_literal hrun hhead with hclosing | hclosing
      · rw [literalFrom_of_not_closing hclosing, hbelow]
        rfl
      · exact literalFrom_of_closing hclosing
    · rw [literalFrom_cons hquote hc, hbelow]
      rfl

/-- Between single quotes there is no quote to look at. -/
theorem literalFrom_false_append {s : List Char} (hs : ∀ c ∈ s, IsLiteral false c)
    (hquote : '\'' ∉ s) (rest : List Char) :
    literalFrom false (s ++ '\'' :: rest) = some (s, rest) := by
  induction s with
  | nil => exact literalFrom_of_closing (closing?_false '\'' rest)
  | cons c s ih =>
    obtain ⟨hc, hs⟩ := List.forall_mem_cons.mp hs
    obtain ⟨hne, hquote⟩ := List.ne_and_not_mem_of_not_mem_cons hquote
    rw [List.cons_append, literalFrom_cons hne.symm hc, ih hs hquote]
    rfl

/-! ## 3. Double quotes -/

theorem basicFrom_of_closing {triple : Bool} {s : List Char} {p : List Char × List Char}
    (h : closing? '"' triple s = some p) :
    basicFrom triple (.text false) ('"' :: s) = some p := by
  rw [basicFrom, if_neg (by simp), if_neg (by simp), if_pos rfl, h]

theorem basicFrom_of_not_closing {triple : Bool} {s : List Char}
    (h : closing? '"' triple s = none) :
    basicFrom triple (.text false) ('"' :: s) =
      prepend '"' (basicFrom triple (.text false) s) := by
  rw [basicFrom, if_neg (by simp), if_neg (by simp), if_pos rfl, h]

theorem basicFrom_backslash (triple : Bool) (s : List Char) :
    basicFrom triple (.text false) ('\\' :: s) = basicFrom triple .escape s := by
  simp [basicFrom]

theorem basicFrom_plain {triple : Bool} {c : Char} (hquote : c ≠ '"') (hbackslash : c ≠ '\\')
    (hc : IsLiteral triple c) (s : List Char) :
    basicFrom triple (.text false) (c :: s) = prepend c (basicFrom triple (.text false) s) := by
  rw [basicFrom, if_neg (by simp), if_neg (by simp), if_neg hquote, if_neg hbackslash]
  split
  · rfl
  · next hfeed =>
    have hplain : isPlain c = true := hc.resolve_right fun h => hfeed h
    have hreturn : ¬ (triple = true ∧ c = '\r' ∧ startsWithFeed s = true) := by
      rintro ⟨-, rfl, -⟩
      exact absurd hplain (by decide)
    rw [if_neg hreturn, if_pos hplain]

/-- A letter after a backslash stands for a character. -/
theorem basicFrom_escape {c x : Char} (hcode : codeLength? c = none)
    (hshort : shortEscape? c = some x) (triple : Bool) (s : List Char) :
    basicFrom triple .escape (c :: s) = prepend x (basicFrom triple (.text false) s) := by
  rw [basicFrom, hcode, hshort]

/-- The digits of a code point are read to the last one. -/
theorem basicFrom_code {ds : List Char} (hds : ∀ d ∈ ds, Text.isDigitOf 16 d = true)
    (triple : Bool) {left : Nat} (hlength : ds.length = left + 1) (value : Nat) (s : List Char) :
    basicFrom triple (.code left value) (ds ++ s) =
      match charOf? (Text.valueFrom 16 value ds) with
      | some x => prepend x (basicFrom triple (.text false) s)
      | none => none := by
  induction ds generalizing left value with
  | nil => cases hlength
  | cons d ds ih =>
    obtain ⟨hd, hds⟩ := List.forall_mem_cons.mp hds
    rw [List.cons_append, basicFrom, if_pos hd]
    cases left with
    | zero =>
      have hnil : ds = [] := by simpa using hlength
      subst hnil
      rfl
    | succ left => exact ih hds (by simpa using hlength) _

/-- A control character is written with four digits. -/
theorem codeDigits_of_lt {n : Nat} (hn : n < 128) :
    (codeDigits n).length = 4 ∧ (∀ d ∈ codeDigits n, Text.isDigitOf 16 d = true) ∧
      Text.value 16 (codeDigits n) = n := by
  have hall : ∀ n < 128, (codeDigits n).length = 4 ∧
      (codeDigits n).all (Text.isDigitOf 16) = true ∧ Text.value 16 (codeDigits n) = n := by
    decide +kernel
  obtain ⟨hlength, hdigits, hvalue⟩ := hall n hn
  exact ⟨hlength, List.all_eq_true.mp hdigits, hvalue⟩

theorem charOf?_toNat (c : Char) : charOf? c.toNat = some c := by
  have hvalid : c.toNat.isValidChar := c.valid
  rw [charOf?, if_pos hvalid, Char.ofNat_toNat]

/-- **What a character is written as is read as the character.** -/
theorem basicFrom_escaped {c : Char} (hquote : c ≠ '"') (triple : Bool) (s : List Char) :
    basicFrom triple (.text false) (escaped triple c ++ s) =
      prepend c (basicFrom triple (.text false) s) := by
  have hshort : ∀ d x, codeLength? d = none → shortEscape? d = some x →
      basicFrom triple (.text false) (['\\', d] ++ s) =
        prepend x (basicFrom triple (.text false) s) := by
    intro d x hcode hshort
    rw [List.cons_append, basicFrom_backslash, List.singleton_append,
      basicFrom_escape hcode hshort]
  rw [escaped]
  split
  · next hc => exact hc ▸ hshort 'b' '\x08' rfl rfl
  split
  · next hc => exact hc ▸ hshort 't' '\t' rfl rfl
  split
  · next hc =>
    subst hc
    cases triple with
    | true => exact basicFrom_plain (by decide) (by decide) (.inr ⟨rfl, rfl⟩) s
    | false => exact hshort 'n' '\n' rfl rfl
  split
  · next hc => exact hc ▸ hshort 'f' '\x0c' rfl rfl
  split
  · next hc => exact hc ▸ hshort 'r' '\r' rfl rfl
  split
  · next hc => exact hc ▸ hshort '\\' '\\' rfl rfl
  split
  · next hcontrol =>
    have hlt : c.toNat < 128 := by
      simp only [isControl, Bool.or_eq_true, Bool.and_eq_true, decide_eq_true_eq,
        beq_iff_eq] at hcontrol
      omega
    obtain ⟨hlength, hdigits, hvalue⟩ := codeDigits_of_lt hlt
    have hcode : basicFrom triple .escape ('u' :: (codeDigits c.toNat ++ s)) =
        basicFrom triple (.code 3 0) (codeDigits c.toNat ++ s) := by
      rw [basicFrom, codeLength?]
    rw [List.append_assoc, List.cons_append, basicFrom_backslash, List.singleton_append, hcode,
      basicFrom_code hdigits triple hlength]
    have hread : Text.valueFrom 16 0 (codeDigits c.toNat) = c.toNat := hvalue
    rw [hread, charOf?_toNat]
  · next _ hfeed _ _ hbackslash hcontrol =>
    have hplain : isPlain c = true :=
      isPlain_of_not_isControl (Bool.eq_false_iff.mpr hcontrol) hfeed
    exact basicFrom_plain hquote hbackslash (.inl hplain) s

/-- A character that is no quote is not written as one, nor as a line break unless it is one. -/
theorem exists_escaped_eq (triple : Bool) {c : Char} (hquote : c ≠ '"') :
    ∃ a text, escaped triple c = a :: text ∧ a ≠ '"' ∧ a ≠ '\r' ∧ (a = '\n' → c = '\n') := by
  rw [escaped]
  split
  · exact ⟨_, _, rfl, by decide, by decide, fun h => absurd h (by decide)⟩
  split
  · exact ⟨_, _, rfl, by decide, by decide, fun h => absurd h (by decide)⟩
  split
  · next hc =>
    cases triple with
    | true => exact ⟨_, _, rfl, by decide, by decide, fun _ => hc⟩
    | false => exact ⟨_, _, rfl, by decide, by decide, fun h => absurd h (by decide)⟩
  split
  · exact ⟨_, _, rfl, by decide, by decide, fun h => absurd h (by decide)⟩
  split
  · exact ⟨_, _, rfl, by decide, by decide, fun h => absurd h (by decide)⟩
  split
  · exact ⟨_, _, rfl, by decide, by decide, fun h => absurd h (by decide)⟩
  split
  · exact ⟨_, _, rfl, by decide, by decide, fun h => absurd h (by decide)⟩
  · next hreturn _ _ => exact ⟨c, [], rfl, hquote, hreturn, fun h => h⟩

/-- What is written goes on with a quote only when the next character is one and need not be
escaped. -/
theorem exists_escapedFrom_eq (triple : Bool) (run : Nat) {c : Char}
    (h : c = '"' → ¬ (triple = true ∧ run < 2)) (s : List Char) :
    ∃ a text, escapedFrom triple run (c :: s) = a :: text ∧ a ≠ '"' ∧ a ≠ '\r' ∧
      (a = '\n' → c = '\n') := by
  rw [escapedFrom]
  by_cases hquote : c = '"'
  · rw [if_pos hquote, if_neg (h hquote)]
    exact ⟨_, _, rfl, by decide, by decide, fun h => absurd h (by decide)⟩
  · obtain ⟨a, text, htext, ha⟩ := exists_escaped_eq triple hquote
    rw [if_neg hquote, htext]
    exact ⟨a, _, rfl, ha⟩

/-- A quote in a string with triple quotes closes it when no more than quotes are left of it. -/
theorem closing?_escapedFrom (run : Nat) (s : List Char) {rest : List Char}
    (hrest : rest.head? ≠ some '"') :
    closing? '"' true (escapedFrom true (run + 1) s ++ (tripled '"' ++ rest)) = none ∨
      closing? '"' true (escapedFrom true (run + 1) s ++ (tripled '"' ++ rest)) =
        some ('"' :: s, rest) := by
  match s with
  | [] => exact .inr (closing?_replicate (k := 1) (by decide) hrest)
  | c :: s =>
    by_cases hraw : c = '"' ∧ run + 1 < 2
    · obtain ⟨rfl, hrun⟩ := hraw
      have hzero : run = 0 := by omega
      subst hzero
      rw [escapedFrom, if_pos rfl, if_pos ⟨rfl, hrun⟩]
      match s with
      | [] => exact .inr (closing?_replicate (k := 2) (by decide) hrest)
      | d :: s =>
        obtain ⟨a, text, htext, ha, -⟩ :=
          exists_escapedFrom_eq true 2 (c := d) (by simp) s
        rw [List.cons_append, htext]
        exact .inl (closing?_cons_cons_of_ne ha _)
    · have hescape : c = '"' → ¬ (true = true ∧ run + 1 < 2) :=
        fun hquote hrun => hraw ⟨hquote, hrun.2⟩
      obtain ⟨a, text, htext, ha, -⟩ := exists_escapedFrom_eq true (run + 1) hescape s
      rw [htext]
      exact .inl (closing?_cons_of_ne ha _)

/-- A quote that is escaped is read as a quote. -/
theorem basicFrom_escapedQuote (triple : Bool) (s : List Char) :
    basicFrom triple (.text false) ('\\' :: '"' :: s) =
      prepend '"' (basicFrom triple (.text false) s) := by
  rw [basicFrom_backslash, basicFrom_escape (x := '"') rfl rfl]

/-- **A string with escapes is read back**, between triple quotes. -/
theorem basicFrom_true_append (run : Nat) (s : List Char) {rest : List Char}
    (hrest : NoQuote rest) :
    basicFrom true (.text false) (escapedFrom true run s ++ (tripled '"' ++ rest)) =
      some (s, rest) := by
  have hhead : rest.head? ≠ some '"' := fun h => (hrest _ h).1 rfl
  induction s generalizing run with
  | nil => exact basicFrom_of_closing (closing?_replicate (k := 0) (Nat.zero_le 2) hhead)
  | cons c s ih =>
    rw [escapedFrom]
    split
    · next hquote =>
      subst hquote
      split
      · rw [List.cons_append]
        rcases closing?_escapedFrom run s hhead with hclosing | hclosing
        · rw [basicFrom_of_not_closing hclosing, ih (run + 1)]
          rfl
        · exact basicFrom_of_closing hclosing
      · rw [List.cons_append, List.cons_append, basicFrom_escapedQuote, ih 0]
        rfl
    · next hquote =>
      rw [List.append_assoc, basicFrom_escaped hquote, ih 0]
      rfl

/-- Between double quotes every quote is escaped. -/
theorem basicFrom_false_append (run : Nat) (s rest : List Char) :
    basicFrom false (.text false) (escapedFrom false run s ++ '"' :: rest) = some (s, rest) := by
  induction s generalizing run with
  | nil => exact basicFrom_of_closing (closing?_false '"' rest)
  | cons c s ih =>
    rw [escapedFrom]
    split
    · next hquote =>
      subst hquote
      rw [if_neg (by simp), List.cons_append, List.cons_append, basicFrom_escapedQuote, ih 0]
      rfl
    · next hquote =>
      rw [List.append_assoc, basicFrom_escaped hquote, ih 0]
      rfl

/-! ## 4. Styles -/

/-- Where quotes are not triple, the string goes over one line. -/
theorem string?_of_not_tripled {s : List Char} (hdouble : ¬ tripled '"' <+: s)
    (hsingle : ¬ tripled '\'' <+: s) : string? s = lineString? s := by
  unfold string?
  split
  · exact absurd (List.prefix_append (tripled '"') _) hdouble
  · exact absurd (List.prefix_append (tripled '\'') _) hsingle
  · rfl

/-- A text with a quote in front has three of them only if two more follow. -/
theorem not_tripled_of_cons {quote a : Char} (h : a ≠ quote) (s : List Char) :
    ¬ tripled quote <+: quote :: a :: s := by
  intro hprefix
  rw [tripled, List.cons_prefix_cons, List.cons_prefix_cons] at hprefix
  exact h hprefix.2.1.symm

theorem not_tripled_of_ne {quote a : Char} (h : a ≠ quote) (s : List Char) :
    ¬ tripled quote <+: a :: s := by
  intro hprefix
  rw [tripled, List.cons_prefix_cons] at hprefix
  exact h hprefix.1.symm

/-- An empty string between two quotes is not the start of three, if no quote follows. -/
theorem not_tripled_of_head? {quote : Char} {rest : List Char} (h : rest.head? ≠ some quote) :
    ¬ tripled quote <+: quote :: quote :: rest := by
  intro hprefix
  rw [tripled, List.cons_prefix_cons, List.cons_prefix_cons] at hprefix
  obtain ⟨t, ht⟩ := hprefix.2.2
  rw [← ht] at h
  exact h rfl

theorem dropBreak_cons {a : Char} (hreturn : a ≠ '\r') (hfeed : a ≠ '\n') (s : List Char) :
    dropBreak (a :: s) = a :: s := by
  unfold dropBreak
  split
  · next h => exact absurd (List.cons.inj h).1 hfeed
  · next h => exact absurd (List.cons.inj h).1 hreturn
  · rfl

/-- The break after the opening quotes is dropped, and nothing else is. -/
theorem dropBreak_openingBreak {s text : List Char}
    (h : '\n' ∉ s → ∃ a rest, text = a :: rest ∧ a ≠ '\r' ∧ a ≠ '\n') :
    dropBreak (openingBreak s ++ text) = text := by
  rw [openingBreak]
  split
  · rfl
  · next hcontains =>
    have hfeed : '\n' ∉ s := by simpa using hcontains
    obtain ⟨a, rest, rfl, hreturn, hfeed⟩ := h hfeed
    rw [List.nil_append, dropBreak_cons hreturn hfeed]

theorem string?_basic (s : List Char) {rest : List Char} (hrest : NoQuote rest) :
    string? (inStyle s .basic ++ rest) = some (s, rest) := by
  have htext : inStyle s .basic ++ rest = '"' :: (escapedFrom false 0 s ++ '"' :: rest) := by
    simp [inStyle]
  have hdouble : ¬ tripled '"' <+: '"' :: (escapedFrom false 0 s ++ '"' :: rest) := by
    cases s with
    | nil => exact not_tripled_of_head? fun h => (hrest _ h).1 rfl
    | cons c s =>
      obtain ⟨a, text, hwritten, ha, -⟩ :=
        exists_escapedFrom_eq false 0 (c := c) (by simp) s
      rw [hwritten]
      exact not_tripled_of_cons ha _
  rw [htext, string?_of_not_tripled hdouble (not_tripled_of_ne (by decide) _), lineString?]
  exact basicFrom_false_append 0 s rest

theorem string?_literal {s : List Char} (hs : ∀ c ∈ s, IsLiteral false c) (hquote : '\'' ∉ s)
    {rest : List Char} (hrest : NoQuote rest) :
    string? (inStyle s .literal ++ rest) = some (s, rest) := by
  have htext : inStyle s .literal ++ rest = '\'' :: (s ++ '\'' :: rest) := by
    simp [inStyle]
  have hsingle : ¬ tripled '\'' <+: '\'' :: (s ++ '\'' :: rest) := by
    cases s with
    | nil => exact not_tripled_of_head? fun h => (hrest _ h).2 rfl
    | cons c s =>
      exact not_tripled_of_cons (List.ne_and_not_mem_of_not_mem_cons hquote).1.symm _
  rw [htext, string?_of_not_tripled (not_tripled_of_ne (by decide) _) hsingle, lineString?]
  exact literalFrom_false_append hs hquote rest

theorem string?_tripleBasic (s : List Char) {rest : List Char} (hrest : NoQuote rest) :
    string? (inStyle s .tripleBasic ++ rest) = some (s, rest) := by
  have htext : inStyle s .tripleBasic ++ rest = '"' :: '"' :: '"' ::
      (openingBreak s ++ (escapedFrom true 0 s ++ (tripled '"' ++ rest))) := by
    simp [inStyle, tripled]
  have hdrop : dropBreak (openingBreak s ++ (escapedFrom true 0 s ++ (tripled '"' ++ rest))) =
      escapedFrom true 0 s ++ (tripled '"' ++ rest) := by
    refine dropBreak_openingBreak fun hfeed => ?_
    cases s with
    | nil => exact ⟨'"', _, rfl, by decide, by decide⟩
    | cons c s =>
      by_cases hquote : c = '"'
      · subst hquote
        exact ⟨'"', _, rfl, by decide, by decide⟩
      · obtain ⟨a, text, hwritten, -, hreturn, ha⟩ :=
          exists_escapedFrom_eq true 0 (fun h => absurd h hquote) s
        refine ⟨a, _, by rw [hwritten]; rfl, hreturn, fun h => ?_⟩
        exact (List.ne_and_not_mem_of_not_mem_cons hfeed).1 (ha h).symm
  rw [htext, string?, hdrop]
  exact basicFrom_true_append 0 s hrest

theorem string?_tripleLiteral {s : List Char} (hs : ∀ c ∈ s, IsLiteral true c)
    (hrun : longestRun '\'' 0 s ≤ 2) {rest : List Char} (hrest : NoQuote rest) :
    string? (inStyle s .tripleLiteral ++ rest) = some (s, rest) := by
  have htext : inStyle s .tripleLiteral ++ rest = '\'' :: '\'' :: '\'' ::
      (openingBreak s ++ (s ++ (tripled '\'' ++ rest))) := by
    simp [inStyle, tripled]
  have hdrop : dropBreak (openingBreak s ++ (s ++ (tripled '\'' ++ rest))) =
      s ++ (tripled '\'' ++ rest) := by
    refine dropBreak_openingBreak fun hfeed => ?_
    cases s with
    | nil => exact ⟨'\'', _, rfl, by decide, by decide⟩
    | cons c s =>
      have hne : c ≠ '\n' := (List.ne_and_not_mem_of_not_mem_cons hfeed).1.symm
      refine ⟨c, _, rfl, ?_, hne⟩
      rintro rfl
      rcases hs '\r' List.mem_cons_self with h | h
      · exact absurd h (by decide)
      · exact hne h.2
  rw [htext, string?, hdrop]
  exact literalFrom_true_append hs hrun hrest

/-- **Every string is read back.** -/
theorem string?_stringText (s : String) {rest : List Char} (hrest : NoQuote rest) :
    string? (stringText s ++ rest) = some (s.toList, rest) := by
  rw [stringText]
  generalize s.toList = s
  have hliteral : (s.any isControl) = false → ∀ c ∈ s, IsLiteral true c := by
    intro hcontrols c hc
    by_cases hfeed : c = '\n'
    · exact .inr ⟨rfl, hfeed⟩
    · rw [List.any_eq_false] at hcontrols
      exact .inl (isPlain_of_not_isControl (by simpa using hcontrols c hc) hfeed)
  unfold styleOf
  dsimp only
  split
  · exact string?_basic s hrest
  split
  · next h =>
    simp only [Bool.and_eq_true, Bool.not_eq_true'] at h
    obtain ⟨⟨hcontrols, hquote⟩, hfeed⟩ := h
    have hquote : '\'' ∉ s := by simpa using hquote
    have hfeed : '\n' ∉ s := by simpa using hfeed
    refine string?_literal (fun c hc => .inl ?_) hquote hrest
    refine (hliteral hcontrols c hc).resolve_right ?_
    rintro ⟨-, rfl⟩
    exact hfeed hc
  split
  · exact string?_tripleBasic s hrest
  split
  · next h =>
    simp only [Bool.and_eq_true, Bool.not_eq_true', decide_eq_true_eq] at h
    exact string?_tripleLiteral (hliteral h.1) h.2 hrest
  split
  · exact string?_tripleBasic s hrest
  · exact string?_basic s hrest

end GoResolver.Toml
