import GoResolver.Proofs.Constraint.Printing

/-!
# The texts of a token list

`Token.scan` reads the tokens of a text.  This file starts from the other end: `Token.Renders` says
which texts a token list has, namely the texts of its tokens in order with spaces and tabs around
them, and at least one of these between two neighbouring tags.

* `Token.scan_eq_some_iff`: a text is read as a token list exactly when it is a text of it.
* `Token.scan_exact`: so every text is the text of at most one token list, and the spaces and tabs
  in an expression make no difference to the constraint that is read.
* `Token.account_of_scan`: the opening parentheses of a text are those of its tokens.

## Where the tags end

Only tags have texts of different lengths, so only at the end of a tag is there anything to decide.
The reader takes as many tag characters as there are, and therefore stops where none follows
(`Ends`).  In a rendering a tag is followed by a gap, by a token that is no tag, or by nothing, and
it is the same condition: `Spaced.ends_iff`.
-/

namespace GoResolver.Constraint

namespace Token

/-! ## 1. Renderings -/

/-- Whether a token is a tag. -/
def IsTag (t : Token) : Prop := ∃ name, t = .tag name

/-- Whether a token list starts with a tag. -/
def StartsWithTag (ts : List Token) : Prop := ∃ t ∈ ts.head?, t.IsTag

/-- Whether a text has nothing but spaces and tabs. -/
def IsGapText (gap : List Char) : Prop := ∀ c ∈ gap, isGap c = true

theorem isGapText_nil : IsGapText [] := fun _ hc => absurd hc List.not_mem_nil

/-- The text of a token list from its first token on: every token has its text and a gap behind it,
and the gap between two tags is not empty. -/
inductive Spaced : List Token → List Char → Prop where
  | nil : Spaced [] []
  | cons {t : Token} {ts : List Token} {gap rest : List Char} (valid : t.Valid)
      (blank : IsGapText gap) (apart : t.IsTag → StartsWithTag ts → gap ≠ [])
      (next : Spaced ts rest) : Spaced (t :: ts) (t.text ++ gap ++ rest)

/-- The texts of a token list: a gap may also stand before the first token. -/
def Renders (s : List Char) (ts : List Token) : Prop :=
  ∃ gap rest, IsGapText gap ∧ Spaced ts rest ∧ s = gap ++ rest

/-! ## 2. What a rendering starts with -/

theorem not_isTagChar_of_isGap {c : Char} (h : isGap c = true) : isTagChar c = false := by
  have hc : c = ' ' ∨ c = '\t' := by simpa [isGap] using h
  rcases hc with rfl | rfl <;> decide

theorem not_ends_text_append {t : Token} (ht : t.Valid) (htag : t.IsTag) (r : List Char) :
    ¬ Ends (t.text ++ r) := by
  obtain ⟨name, rfl⟩ := htag
  rw [Valid, isTagText, Bool.and_eq_true, List.all_eq_true] at ht
  obtain ⟨hne, hchars⟩ := ht
  rw [text]
  cases h : name.toList with
  | nil =>
    rw [h] at hne
    cases hne
  | cons c s =>
    intro hends
    have hc : isTagChar c = true := hchars c (by rw [h]; exact List.mem_cons_self)
    rw [hends c rfl] at hc
    cases hc

theorem ends_text_append {t : Token} (htag : ¬ t.IsTag) (r : List Char) : Ends (t.text ++ r) := by
  intro c hc
  cases t with
  | tag name => exact absurd ⟨name, rfl⟩ htag
  | not | and | or | lparen | rparen =>
    rw [← Option.some_inj.mp hc]
    decide

/-- A text of a token list starts with a tag character exactly when the token list starts with a
tag. -/
theorem Spaced.ends_iff {ts : List Token} {s : List Char} (h : Spaced ts s) :
    Ends s ↔ ¬ StartsWithTag ts := by
  cases h with
  | nil =>
    refine iff_of_true (fun c hc => nomatch hc) ?_
    rintro ⟨t, ht, -⟩
    cases ht
  | @cons t ts gap rest valid _ _ _ =>
    have hstart : StartsWithTag (t :: ts) ↔ t.IsTag := by
      rw [StartsWithTag, List.head?_cons]
      exact ⟨fun ⟨t', ht', htag⟩ => Option.some_inj.mp ht' ▸ htag, fun htag => ⟨t, rfl, htag⟩⟩
    rw [hstart, List.append_assoc]
    by_cases htag : t.IsTag
    · exact iff_of_false (not_ends_text_append valid htag _) (not_not_intro htag)
    · exact iff_of_true (ends_text_append htag _) htag

/-! ## 3. What is read is rendered -/

/-- A gap in front of a text is a part of it. -/
theorem Renders.cons_gap {c : Char} {s : List Char} {ts : List Token} (hc : isGap c = true)
    (h : Renders s ts) : Renders (c :: s) ts := by
  obtain ⟨gap, rest, hgap, hrest, rfl⟩ := h
  exact ⟨c :: gap, rest, List.forall_mem_cons.mpr ⟨hc, hgap⟩, hrest, rfl⟩

/-- One more token at the front, if it is no tag or the text does not go on with one. -/
theorem Renders.cons {t : Token} {s : List Char} {ts : List Token} (ht : t.Valid)
    (hends : t.IsTag → Ends s) (h : Renders s ts) : Renders (t.text ++ s) (t :: ts) := by
  obtain ⟨gap, rest, hgap, hrest, rfl⟩ := h
  refine ⟨[], _, isGapText_nil, .cons ht hgap ?_ hrest, ?_⟩
  · rintro htag hstart rfl
    exact hrest.ends_iff.mp (hends htag) hstart
  · rw [List.nil_append, List.append_assoc]

/-- The same for a reader that has put the token in front of what it read. -/
theorem Renders.of_map_cons {t : Token} {s : List Char} {ts : List Token} (ht : t.Valid)
    (hends : t.IsTag → Ends s) (ih : ∀ {ts}, scan s = some ts → Renders s ts)
    (h : (t :: ·) <$> scan s = some ts) : Renders (t.text ++ s) ts := by
  obtain ⟨ts', hts', rfl⟩ := Option.map_eq_some_iff.mp h
  exact (ih hts').cons ht hends

theorem renders_of_scan {s : List Char} {ts : List Token} (h : scan s = some ts) :
    Renders s ts := by
  have hnone : ∀ {t : Token} {s : List Char}, (∀ name, t ≠ .tag name) → t.IsTag → Ends s :=
    fun hne ⟨name, hname⟩ => absurd hname (hne name)
  fun_induction scan s generalizing ts with
  | case1 =>
    rw [← Option.some_inj.mp h]
    exact ⟨[], [], isGapText_nil, .nil, rfl⟩
  | case2 c s hgap ih => exact (ih h).cons_gap hgap
  | case3 s _ ih => exact .of_map_cons (t := .not) trivial (hnone (by simp)) ih h
  | case4 s _ _ ih => exact .of_map_cons (t := .lparen) trivial (hnone (by simp)) ih h
  | case5 s _ _ _ ih => exact .of_map_cons (t := .rparen) trivial (hnone (by simp)) ih h
  | case6 s _ _ _ _ ih => exact .of_map_cons (t := .and) trivial (hnone (by simp)) ih h
  | case7 => cases h
  | case8 s _ _ _ _ _ ih => exact .of_map_cons (t := .or) trivial (hnone (by simp)) ih h
  | case9 => cases h
  | case10 c s _ _ _ _ _ _ hc ih =>
    have hchars : ∀ c' ∈ c :: s.takeWhile isTagChar, isTagChar c' = true :=
      List.forall_mem_cons.mpr ⟨hc, List.all_eq_true.mp List.all_takeWhile⟩
    have hvalid : Valid (.tag (String.ofList (c :: s.takeWhile isTagChar))) := by
      rw [Valid, String.toList_ofList, isTagText, List.all_eq_true.mpr hchars]
      rfl
    have hends : Ends (s.dropWhile isTagChar) := fun c' hc' => by
      have hhead := List.head?_dropWhile_not isTagChar s
      rwa [hc'] at hhead
    have hrenders := Renders.of_map_cons hvalid (fun _ => hends) ih h
    rwa [text, String.toList_ofList, List.cons_append, List.takeWhile_append_dropWhile]
      at hrenders
  | case11 => cases h

/-! ## 4. What is rendered is read -/

theorem scan_gap_append {gap : List Char} (h : IsGapText gap) (s : List Char) :
    scan (gap ++ s) = scan s := by
  induction gap with
  | nil => rfl
  | cons c gap ih =>
    obtain ⟨hc, hgap⟩ := List.forall_mem_cons.mp h
    rw [List.cons_append, scan_cons_of_isGap hc, ih hgap]

theorem Spaced.scan_eq {ts : List Token} {s : List Char} (h : Spaced ts s) :
    scan s = some ts := by
  induction h with
  | nil => rw [scan]
  | @cons t ts gap rest valid blank apart next ih =>
    have hends : (∃ name, t = .tag name) → Ends (gap ++ rest) := by
      intro htag
      cases gap with
      | nil => exact next.ends_iff.mpr fun hstart => apart htag hstart rfl
      | cons c gap =>
        intro c' hc'
        rw [← Option.some_inj.mp hc']
        exact not_isTagChar_of_isGap (blank c List.mem_cons_self)
    rw [List.append_assoc, scan_text_append valid hends, scan_gap_append blank, ih]
    rfl

/-- **A text is read as a token list exactly when it is a text of it.** -/
theorem scan_eq_some_iff {s : List Char} {ts : List Token} : scan s = some ts ↔ Renders s ts := by
  constructor
  · exact renders_of_scan
  · rintro ⟨gap, rest, hgap, hrest, rfl⟩
    rw [scan_gap_append hgap, hrest.scan_eq]

/-! ## 5. What a text that is read is made of -/

/-- The tokens can be written, and the opening parentheses of the text are theirs. -/
def Account (s : List Char) (ts : List Token) : Prop :=
  (∀ t ∈ ts, t.Valid) ∧ s.count '(' = ts.count .lparen

theorem count_text {t : Token} (ht : t.Valid) : t.text.count '(' = [t].count .lparen := by
  cases t with
  | tag name =>
    rw [Valid, isTagText, Bool.and_eq_true, List.all_eq_true] at ht
    exact List.count_eq_zero.mpr fun hmem => absurd (ht.2 _ hmem) (by decide)
  | not | and | or | lparen | rparen => decide

theorem count_gapText {gap : List Char} (h : IsGapText gap) : gap.count '(' = 0 :=
  List.count_eq_zero.mpr fun hmem => absurd (h _ hmem) (by decide)

theorem Spaced.account {ts : List Token} {s : List Char} (h : Spaced ts s) : Account s ts := by
  induction h with
  | nil => exact ⟨fun t ht => absurd ht List.not_mem_nil, rfl⟩
  | @cons t ts gap rest valid blank _ _ ih =>
    obtain ⟨hvalid, hcount⟩ := ih
    refine ⟨List.forall_mem_cons.mpr ⟨valid, hvalid⟩, ?_⟩
    have hsplit : (t :: ts).count .lparen = [t].count .lparen + ts.count .lparen := by
      rw [← List.count_append, List.singleton_append]
    rw [List.count_append, List.count_append, count_text valid, count_gapText blank, hcount,
      hsplit, Nat.add_zero]

/-- A text that is read is accounted for by its tokens. -/
theorem account_of_scan {s : List Char} {ts : List Token} (h : scan s = some ts) :
    Account s ts := by
  obtain ⟨gap, rest, hgap, hrest, rfl⟩ := renders_of_scan h
  obtain ⟨hvalid, hcount⟩ := hrest.account
  exact ⟨hvalid, by rw [List.count_append, count_gapText hgap, Nat.zero_add, hcount]⟩

/-! ## 6. Exactness -/

/-- **Reading tokens is exact, and blind to spaces and tabs.**  A text is read as a token list
exactly when it is a text of it; every text is the text of at most one token list; and any two texts
of a token list are read as the constraint that the token list denotes, or neither is read. -/
theorem scan_exact :
    (∀ s ts, scan s = some ts ↔ Renders s ts) ∧
    (∀ s ts ts', Renders s ts → Renders s ts' → ts = ts') ∧
    ∀ s s' ts, Renders s ts → Renders s' ts →
      parse? s = ofTokens? ts ∧ parse? s = parse? s' := by
  have hparse : ∀ {s ts}, Renders s ts → parse? s = ofTokens? ts := by
    intro s ts h
    rw [parse?, scan_eq_some_iff.mpr h, Option.bind_some]
  refine ⟨fun s ts => scan_eq_some_iff, fun s ts ts' h h' => ?_, fun s s' ts h h' => ?_⟩
  · exact Option.some_inj.mp ((scan_eq_some_iff.mpr h).symm.trans (scan_eq_some_iff.mpr h'))
  · exact ⟨hparse h, (hparse h).trans (hparse h').symm⟩

/-- The same tokens written without any space, and with tabs and spaces in all places. -/
theorem scan_exact_with_tabs :
    Renders "a&&!b".toList [.tag "a", .and, .not, .tag "b"] ∧
      Renders "\ta && ! b ".toList [.tag "a", .and, .not, .tag "b"] ∧
      parse? "a&&!b".toList = parse? "\ta && ! b ".toList := by
  have hplain : Renders "a&&!b".toList [.tag "a", .and, .not, .tag "b"] :=
    (scan_exact.1 _ _).mp (by decide +kernel)
  have hspaced : Renders "\ta && ! b ".toList [.tag "a", .and, .not, .tag "b"] :=
    (scan_exact.1 _ _).mp (by decide +kernel)
  exact ⟨hplain, hspaced, (scan_exact.2.2 _ _ _ hplain hspaced).2⟩

end Token

end GoResolver.Constraint
