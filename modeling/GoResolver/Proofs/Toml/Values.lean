import GoResolver.Proofs.Text.Numbers
import GoResolver.Proofs.Toml.Strings
import GoResolver.Toml.Reader
import Mathlib.Data.List.Basic

/-!
# Values are read back

What is written for a string, a truth value, a natural number or an array of strings is read as that
value, when the line ends after it (`ReadsAs`).

A reader of values looks at the first character to see what kind of value it is, so each kind needs
the first character of what is written.  A number needs more: digits could go on as a date, a time,
a fraction or an exponent, and the end of the line rules all of them out.

In an array every item but a single one has a line of its own.  The gaps between items are skipped,
and the items are read in turn (`items?_itemLines`).
-/

namespace GoResolver.Toml

/-- A text at the end of a line is read as a value. -/
structure ReadsAs (text : List Char) (v : Value) : Prop where
  not_blank : ∀ c ∈ text.head?, isBlank c = false
  value_eq : ∀ rest, value? maxNesting (text ++ '\n' :: rest) = some (v, '\n' :: rest)

/-- What is written in a line does not go on with a quote. -/
theorem noQuote_cons {c : Char} (h : c ≠ '"' ∧ c ≠ '\'') (rest : List Char) :
    NoQuote (c :: rest) := by
  intro d hd
  rw [List.head?_cons, Option.mem_some_iff] at hd
  exact hd ▸ h

/-! ## 1. Strings and truth values -/

/-- What is written for a string starts with a quote. -/
theorem exists_stringText_eq (s : String) :
    ∃ c text, stringText s = c :: text ∧ (c = '"' ∨ c = '\'') := by
  rw [stringText]
  cases styleOf s.toList with
  | basic => exact ⟨'"', _, rfl, .inl rfl⟩
  | literal => exact ⟨'\'', _, rfl, .inr rfl⟩
  | tripleBasic => exact ⟨'"', _, rfl, .inl rfl⟩
  | tripleLiteral => exact ⟨'\'', _, rfl, .inr rfl⟩

/-- A value that starts with a quote is a string. -/
theorem valueWith?_of_quote {c : Char} (hc : c = '"' ∨ c = '\'') (inner : Option ValueReader)
    (s : List Char) :
    valueWith? inner (c :: s) =
      (string? (c :: s)).map fun p => (.string (String.ofList p.1), p.2) := by
  rcases hc with rfl | rfl <;> simp [valueWith?]

theorem value?_stringText (room : Nat) (s : String) {rest : List Char} (hrest : NoQuote rest) :
    value? room (stringText s ++ rest) = some (.string s, rest) := by
  have hread : ∀ inner, valueWith? inner (stringText s ++ rest) = some (.string s, rest) := by
    intro inner
    have hstring := string?_stringText s hrest
    obtain ⟨c, text, htext, hc⟩ := exists_stringText_eq s
    rw [htext, List.cons_append] at hstring ⊢
    rw [valueWith?_of_quote hc, hstring, Option.map_some, String.ofList_toList]
  cases room with
  | zero => exact hread none
  | succ room => exact hread _

theorem readsAs_stringText (s : String) : ReadsAs (stringText s) (.string s) where
  not_blank := by
    obtain ⟨c, text, htext, hc⟩ := exists_stringText_eq s
    rw [htext]
    rcases hc with rfl | rfl <;> simp [isBlank]
  value_eq rest := value?_stringText maxNesting s (noQuote_cons (by decide) rest)

theorem readsAs_booleanText (b : Bool) : ReadsAs (booleanText b) (.boolean b) := by
  cases b with
  | true =>
    have htext : booleanText true = ['t', 'r', 'u', 'e'] := rfl
    exact ⟨by simp [htext, isBlank], fun rest => rfl⟩
  | false =>
    have htext : booleanText false = ['f', 'a', 'l', 's', 'e'] := rfl
    exact ⟨by simp [htext, isBlank], fun rest => rfl⟩

/-! ## 2. Numbers -/

theorem moreDigits?_append {ds : List Char} (hds : ∀ d ∈ ds, Text.isDigit d = true)
    (rest : List Char) : moreDigits? 10 (ds ++ '\n' :: rest) = some (ds, '\n' :: rest) := by
  induction ds with
  | nil => rfl
  | cons d ds ih =>
    obtain ⟨hd, hds⟩ := List.forall_mem_cons.mp hds
    have hunderscore : d ≠ '_' := by
      rintro rfl
      exact absurd hd (by decide)
    rw [List.cons_append]
    unfold moreDigits?
    split
    · next h => exact absurd (List.cons.inj h).1 hunderscore
    · next c s _ h =>
      obtain ⟨rfl, rfl⟩ := List.cons.inj h
      rw [if_pos (Text.isDigitOf_ten hd), ih hds, Option.map_some]
    · next h => cases h

/-- Digits at the end of a line are no date and no time. -/
theorem not_startsMoment {ds : List Char} (hds : ∀ d ∈ ds, Text.isDigit d = true) (k : Nat)
    {c : Char} (hc : Text.isDigit c = false) (hfeed : c ≠ '\n') (rest : List Char) :
    (((ds ++ '\n' :: rest).take k).all Text.isDigit && (ds ++ '\n' :: rest)[k]? == some c) =
      false := by
  rw [Bool.and_eq_false_iff]
  by_cases hlength : ds.length < k
  · refine .inl (Bool.eq_false_iff.mpr fun hall => ?_)
    have hmem : '\n' ∈ (ds ++ '\n' :: rest).take k := by
      rw [List.mem_take_iff_getElem]
      exact ⟨ds.length, by simp; omega, by simp⟩
    exact absurd (List.all_eq_true.mp hall _ hmem) (by decide)
  · refine .inr ?_
    rw [beq_eq_false_iff_ne]
    intro hget
    rcases Nat.lt_or_ge k ds.length with hlt | hge
    · rw [List.getElem?_append_left hlt] at hget
      rw [hds c (List.mem_of_getElem? hget)] at hc
      cases hc
    · have hk : k = ds.length := by omega
      subst hk
      rw [List.getElem?_append_right (Nat.le_refl _), Nat.sub_self] at hget
      exact hfeed (Option.some_inj.mp hget).symm

/-- A value that starts with a digit is a number, when it is no date and no time. -/
theorem valueWith?_of_digit {c : Char} (hc : Text.isDigit c = true) {s : List Char}
    (hdate : startsDate (c :: s) = false) (htime : startsTime (c :: s) = false)
    (inner : Option ValueReader) : valueWith? inner (c :: s) = number? (c :: s) := by
  have hne : ∀ d, Text.isDigit d = false → c ≠ d := by
    rintro d hd rfl
    rw [hc] at hd
    cases hd
  have hquote : ¬ ((c :: s).head? = some '"' ∨ (c :: s).head? = some '\'') := by
    rw [List.head?_cons, Option.some_inj, Option.some_inj, not_or]
    exact ⟨hne '"' rfl, hne '\'' rfl⟩
  unfold valueWith?
  split
  · next h => exact absurd (List.cons.inj h).1 (hne 't' rfl)
  · next h => exact absurd (List.cons.inj h).1 (hne 'f' rfl)
  · next h => exact absurd (List.cons.inj h).1 (hne '[' rfl)
  · next h => exact absurd (List.cons.inj h).1 (hne _ rfl)
  · rw [if_neg hquote, hdate, htime, Bool.or_self, if_neg Bool.false_ne_true]

/-- A number without a sign that does not start with a zero is decimal. -/
theorem number?_of_digit {c : Char} (hc : Text.isDigit c = true) (hzero : c ≠ '0')
    (s : List Char) : number? (c :: s) = decimal? false (c :: s) := by
  have hne : ∀ d, Text.isDigit d = false → c ≠ d := by
    rintro d hd rfl
    rw [hc] at hd
    cases hd
  have hsigned : signed (c :: s) = (none, c :: s) := by
    unfold signed
    split
    · next h => exact absurd (List.cons.inj h).1 (hne '+' rfl)
    · next h => exact absurd (List.cons.inj h).1 (hne '-' rfl)
    · rfl
  rw [number?, hsigned]
  split
  · next h => exact absurd (List.cons.inj (Prod.mk.inj h).2).1 hzero
  · next h => exact absurd (List.cons.inj (Prod.mk.inj h).2).1 hzero
  · next h => exact absurd (List.cons.inj (Prod.mk.inj h).2).1 hzero
  · next h => exact absurd (List.cons.inj (Prod.mk.inj h).2).1 (hne 'i' rfl)
  · next h => exact absurd (List.cons.inj (Prod.mk.inj h).2).1 (hne 'n' rfl)
  · next h =>
    obtain ⟨rfl, rfl⟩ := Prod.mk.inj h
    rfl

theorem number?_naturalText {n : Nat} (hn : n < Text.int64Limit) (rest : List Char) :
    number? (naturalText n ++ '\n' :: rest) = some (.integer n, '\n' :: rest) := by
  have hdigits : ∀ d ∈ naturalText n, Text.isDigit d = true :=
    fun d hd => Text.isDigit_of_mem_digits hd
  have hvalue : Text.value 10 (naturalText n) = n := Text.value_digits n
  have htext : naturalText n = ['0'] ∨ ∃ c ds, naturalText n = c :: ds ∧ c ≠ '0' :=
    Text.digits_cases n
  have hwhole : ∀ (whole : List Char), Text.value 10 whole = n → ∀ s,
      wholeDigits? s = some (whole, '\n' :: rest) →
        decimal? false s = some (.integer n, '\n' :: rest) := by
    intro whole hwhole s hs
    have hinteger : integer? false n = some (.integer n) := by
      rw [integer?, if_neg Bool.false_ne_true, if_pos hn]
    simp [decimal?, hs, fraction?, exponent?, hwhole, hinteger]
  rcases htext with hzero | ⟨c, ds, htext, hc⟩
  · rw [hzero] at hvalue ⊢
    have hdecimal := hwhole ['0'] hvalue ('0' :: '\n' :: rest) rfl
    rw [List.singleton_append, ← hdecimal]
    rfl
  · rw [htext] at hdigits hvalue ⊢
    obtain ⟨hdigit, hds⟩ := List.forall_mem_cons.mp hdigits
    have hread : wholeDigits? (c :: (ds ++ '\n' :: rest)) = some (c :: ds, '\n' :: rest) := by
      unfold wholeDigits?
      split
      · next h => exact absurd (List.cons.inj h).1 hc
      · rw [digits?, if_pos (Text.isDigitOf_ten hdigit), moreDigits?_append hds, Option.map_some]
    rw [List.cons_append, number?_of_digit hdigit hc]
    exact hwhole (c :: ds) hvalue _ hread

theorem readsAs_naturalText {n : Nat} (hn : n < Text.int64Limit) :
    ReadsAs (naturalText n) (.integer n) := by
  have hdigits : ∀ d ∈ naturalText n, Text.isDigit d = true :=
    fun d hd => Text.isDigit_of_mem_digits hd
  obtain ⟨c, ds, htext⟩ : ∃ c ds, naturalText n = c :: ds :=
    List.exists_cons_of_ne_nil Nat.toDigits_ne_nil
  have hc : Text.isDigit c = true := hdigits c (by rw [htext]; exact List.mem_cons_self)
  constructor
  · intro d hd
    have hdigit := hdigits d (List.mem_of_mem_head? hd)
    rw [isBlank, Bool.or_eq_false_iff, beq_eq_false_iff_ne, beq_eq_false_iff_ne]
    constructor <;>
    · rintro rfl
      exact absurd hdigit (by decide)
  · intro rest
    have hdate := not_startsMoment hdigits 4 (c := '-') rfl (by decide) rest
    have htime := not_startsMoment hdigits 2 (c := ':') rfl (by decide) rest
    have hnumber := number?_naturalText hn rest
    rw [htext, List.cons_append] at hdate htime hnumber ⊢
    rw [← hnumber]
    exact valueWith?_of_digit hc hdate htime _

/-! ## 3. Arrays -/

/-- What is no blank, no break and no comment is not skipped. -/
theorem skipGap?_cons {c : Char} (hc : c ∉ [' ', '\t', '\n', '\r', '#']) (s : List Char) :
    skipGap? false (c :: s) = some (c :: s) := by
  simp only [List.mem_cons, List.not_mem_nil, or_false, not_or] at hc
  obtain ⟨hspace, htab, hfeed, hreturn, hcomment⟩ := hc
  have hblank : isBlank c = false := by simp [isBlank, hspace, htab]
  rw [skipGap?, if_neg (by simp [hfeed, hreturn]), if_neg Bool.false_ne_true,
    if_neg (by simp [hblank]), if_neg hcomment]

theorem skipGap?_stringText (s : String) (rest : List Char) :
    skipGap? false (stringText s ++ rest) = some (stringText s ++ rest) := by
  obtain ⟨c, text, htext, hc⟩ := exists_stringText_eq s
  rw [htext, List.cons_append]
  refine skipGap?_cons ?_ _
  rcases hc with rfl | rfl <;> decide

/-- An item is read with the gap before it and the character after it. -/
theorem items?_of_item {room fuel : Nat} {s : String} {text rest r : List Char} {next : Char}
    (hgap : skipGap? false text = some (stringText s ++ rest)) (hrest : rest = next :: r)
    (hnext : next = ',' ∨ next = ']') :
    items? (value? room) (fuel + 1) text =
      if next = ',' then
        (items? (value? room) fuel r).map fun p => (.string s :: p.1, p.2)
      else some ([.string s], r) := by
  subst hrest
  have hquote : NoQuote (next :: r) := by
    rcases hnext with rfl | rfl <;> exact noQuote_cons (by decide) r
  have hskip : skipGap? false (next :: r) = some (next :: r) := by
    rcases hnext with rfl | rfl <;> exact skipGap?_cons (by decide) r
  have hvalue := value?_stringText room s hquote
  obtain ⟨c, written, htext, hc⟩ := exists_stringText_eq s
  have hclosing : c ≠ ']' := by rcases hc with rfl | rfl <;> decide
  rw [htext, List.cons_append] at hgap hvalue
  rw [items?, hgap, Option.bind_eq_bind, Option.bind_some]
  split
  · next h => exact absurd (List.cons.inj h).1 hclosing
  · rw [hvalue, Option.bind_eq_bind, Option.bind_some]
    dsimp only
    rw [hskip, Option.bind_some]
    rcases hnext with rfl | rfl
    · rw [if_pos rfl]
      show (items? (value? room) fuel r).bind (fun p => some (.string s :: p.1, p.2)) = _
      cases items? (value? room) fuel r with
      | none => rfl
      | some p => rfl
    · rw [if_neg (by decide)]
      rfl

/-- The items of an array, each in a line of its own, are read in turn. -/
theorem items?_itemLines (room : Nat) (items : List String) (rest : List Char) {fuel : Nat}
    (hfuel : items.length < fuel) :
    items? (value? room) fuel
        ('\n' :: (items.map stringText).flatMap itemLine ++ ']' :: rest) =
      some (items.map .string, rest) := by
  induction items generalizing fuel with
  | nil =>
    obtain ⟨fuel, rfl⟩ := Nat.exists_eq_succ_of_ne_zero (Nat.ne_of_gt hfuel)
    rfl
  | cons s items ih =>
    obtain ⟨fuel, rfl⟩ := Nat.exists_eq_succ_of_ne_zero (Nat.ne_of_gt (Nat.zero_lt_of_lt hfuel))
    have hrest := ih (Nat.lt_of_succ_lt_succ hfuel)
    have hitem : '\n' :: ((s :: items).map stringText).flatMap itemLine ++ ']' :: rest =
        ['\n', ' ', ' ', ' ', ' '] ++ (stringText s ++
          (',' :: ('\n' :: (items.map stringText).flatMap itemLine ++ ']' :: rest))) := by
      simp [itemLine]
    have hgap : skipGap? false (['\n', ' ', ' ', ' ', ' '] ++ (stringText s ++
          (',' :: ('\n' :: (items.map stringText).flatMap itemLine ++ ']' :: rest)))) =
        some (stringText s ++
          (',' :: ('\n' :: (items.map stringText).flatMap itemLine ++ ']' :: rest))) :=
      skipGap?_stringText s _
    rw [hitem, items?_of_item hgap rfl (.inl rfl), if_pos rfl, hrest]
    rfl

/-- Each item takes at least one character. -/
theorem length_le_length_itemLines (items : List String) :
    items.length ≤ ((items.map stringText).flatMap itemLine).length := by
  induction items with
  | nil => exact Nat.le_refl 0
  | cons s items ih =>
    rw [List.map_cons, List.flatMap_cons, List.length_append, itemLine, List.length_append,
      List.length_append, List.length_cons]
    simp only [List.length_cons]
    omega

/-- An array of strings is read back, whatever follows it. -/
theorem valueWith?_stringsText (room : Nat) (items : List String) (rest : List Char) :
    valueWith? (some (value? room)) (stringsText items ++ rest) =
      some (.array (items.map .string), rest) := by
  match items with
  | [] => rfl
  | [s] =>
    have htext : stringsText [s] ++ rest = '[' :: (stringText s ++ ']' :: rest) := by
      simp [stringsText, arrayText]
    rw [htext]
    show (items? (value? room) _ (stringText s ++ ']' :: rest)).map _ = _
    rw [items?_of_item (skipGap?_stringText s _) rfl (.inr rfl), if_neg (by decide)]
    rfl
  | s :: s' :: items =>
    have htext : stringsText (s :: s' :: items) ++ rest =
        '[' :: ('\n' :: ((s :: s' :: items).map stringText).flatMap itemLine ++ ']' :: rest) := by
      simp [stringsText, arrayText]
    have hlength : (s :: s' :: items).length <
        ('\n' :: ((s :: s' :: items).map stringText).flatMap itemLine ++ ']' :: rest).length +
          1 := by
      have hlines := length_le_length_itemLines (s :: s' :: items)
      simp only [List.length_append, List.length_cons] at hlines ⊢
      omega
    rw [htext]
    show (items? (value? room) _ _).map _ = _
    rw [items?_itemLines room (s :: s' :: items) rest hlength]
    rfl

theorem readsAs_stringsText (items : List String) :
    ReadsAs (stringsText items) (.array (items.map .string)) where
  not_blank := by
    have hhead : (stringsText items).head? = some '[' := by
      match items with
      | [] => rfl
      | [s] => rfl
      | s :: s' :: items => rfl
    rw [hhead]
    simp [isBlank]
  value_eq rest := valueWith?_stringsText _ items ('\n' :: rest)

end GoResolver.Toml
