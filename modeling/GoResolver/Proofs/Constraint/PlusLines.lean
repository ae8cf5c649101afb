import GoResolver.Constraint.PlusLine
import GoResolver.Proofs.Constraint.RoundTrip
import Mathlib.Data.List.Forall2

/-!
# Constraint lines of the `+build` form

Such a line is another way to write an expression: blanks stand for `||`, commas for `&&`, and `!`
for itself.

* `isSome_ofPlusLine?_iff`: which lines can be read, said by their characters (`IsPlusLine`).
* `holds_of_ofPlusLine?`: when the constraint of a line holds, said by the terms of the line.
* `ofPlusLine?_agrees_with_parse?`: with the two operators written out, a line is read by `parse?`
  as the same constraint.

## How the two readers meet

They share no code, and they differ about blanks, so both are compared with a third thing, the
derivations of the grammar.  A term is an operand with at most one `!`, an option is a chain of such
operands, and a line is a chain of options.  The derivation put together in this way spells the
expression and stands for the constraint that the line is read as
(`exists_derivation_of_ofPlusLine?`).  Chains of one part need no care: `conj` and `disj` are what
both sides put chains together with.
-/

namespace GoResolver.Constraint

/-! ## 1. Which lines can be read -/

/-- A term as it is written: a tag with at most one `!` in front. -/
def IsTerm (s : List Char) : Prop := ∃ tag, isTagText tag = true ∧ (s = tag ∨ s = '!' :: tag)

/-- A line that can be read: it has an option, and its options have terms between their commas. -/
def IsPlusLine (s : List Char) : Prop :=
  Text.words s ≠ [] ∧ ∀ option ∈ Text.words s, ∀ term ∈ Text.pieces ',' option, IsTerm term

/-- A list is read by reading each of its entries. -/
theorem mapM_eq_some_iff {α β : Type} {f : α → Option β} {xs : List α} {ys : List β} :
    xs.mapM f = some ys ↔ List.Forall₂ (fun x y => f x = some y) xs ys := by
  induction xs generalizing ys with
  | nil => cases ys <;> simp
  | cons x xs ih =>
    simp only [List.mapM_cons, Option.bind_eq_bind, Option.bind_eq_some_iff, ih,
      List.forall₂_cons_left_iff, Option.pure_def, Option.some.injEq]
    constructor
    · rintro ⟨y, hy, ys', hys', rfl⟩
      exact ⟨y, ys', hy, hys', rfl⟩
    · rintro ⟨y, ys', hy, hys', rfl⟩
      exact ⟨y, hy, ys', hys', rfl⟩

theorem isSome_mapM_iff {α β : Type} {f : α → Option β} {xs : List α} :
    (xs.mapM f).isSome ↔ ∀ x ∈ xs, (f x).isSome := by
  induction xs with
  | nil => simp
  | cons x xs ih =>
    rw [List.mapM_cons, List.forall_mem_cons, ← ih]
    cases f x <;> cases xs.mapM f <;> simp

/-- A tag does not start with the character of a negation. -/
theorem not_isTagText_not (s : List Char) : ¬ isTagText ('!' :: s) = true := by
  rw [isTagText, Bool.and_eq_true, List.all_cons, Bool.and_eq_true]
  exact fun h => absurd h.2.1 (by decide)

theorem term?_eq_some_iff {s : List Char} {c : Constraint} :
    term? s = some c ↔ ∃ tag, isTagText tag = true ∧
      (s = tag ∧ c = .tag (String.ofList tag) ∨
        s = '!' :: tag ∧ c = .not (.tag (String.ofList tag))) := by
  by_cases hs : ∃ tag, s = '!' :: tag
  · obtain ⟨tag, rfl⟩ := hs
    rw [term?, Option.ite_none_right_eq_some]
    constructor
    · rintro ⟨htag, hc⟩
      exact ⟨tag, htag, .inr ⟨rfl, (Option.some_inj.mp hc).symm⟩⟩
    · rintro ⟨tag', htag, ⟨rfl, -⟩ | ⟨hs, rfl⟩⟩
      · exact absurd htag (not_isTagText_not tag)
      · rw [(List.cons.inj hs).2]
        exact ⟨htag, rfl⟩
  · have hplain : term? s = if isTagText s then some (.tag (String.ofList s)) else none := by
      rw [term?]
      exact fun tag h => hs ⟨tag, h⟩
    rw [hplain, Option.ite_none_right_eq_some]
    constructor
    · rintro ⟨htag, hc⟩
      exact ⟨s, htag, .inl ⟨rfl, (Option.some_inj.mp hc).symm⟩⟩
    · rintro ⟨tag, htag, ⟨rfl, rfl⟩ | ⟨hs', -⟩⟩
      · exact ⟨htag, rfl⟩
      · exact absurd ⟨tag, hs'⟩ hs

theorem option?_eq_some_iff {s : List Char} {c : Constraint} :
    option? s = some c ↔
      ∃ cs, List.Forall₂ (fun t c => term? t = some c) (Text.pieces ',' s) cs ∧ conj cs = c := by
  rw [option?]
  exact Option.map_eq_some_iff.trans (exists_congr fun cs => and_congr_left' mapM_eq_some_iff)

theorem ofPlusLine?_eq_some_iff {s : List Char} {c : Constraint} :
    ofPlusLine? s = some c ↔ Text.words s ≠ [] ∧
      ∃ cs, List.Forall₂ (fun o c => option? o = some c) (Text.words s) cs ∧ disj cs = c := by
  simp only [← mapM_eq_some_iff]
  unfold ofPlusLine?
  cases hwords : Text.words s with
  | nil => simp
  | cons o os =>
    have hne : (o :: os).mapM option? ≠ some [] := by
      rw [Ne, mapM_eq_some_iff, List.forall₂_nil_right_iff]
      exact List.cons_ne_nil o os
    cases hread : (o :: os).mapM option? with
    | none => simp
    | some cs =>
      cases cs with
      | nil => exact absurd hread hne
      | cons c' cs => simp

theorem isSome_term?_iff {s : List Char} : (term? s).isSome ↔ IsTerm s := by
  rw [Option.isSome_iff_exists]
  constructor
  · rintro ⟨c, hc⟩
    obtain ⟨tag, htag, ⟨hs, -⟩ | ⟨hs, -⟩⟩ := term?_eq_some_iff.mp hc
    · exact ⟨tag, htag, .inl hs⟩
    · exact ⟨tag, htag, .inr hs⟩
  · rintro ⟨tag, htag, hs | hs⟩
    · exact ⟨_, term?_eq_some_iff.mpr ⟨tag, htag, .inl ⟨hs, rfl⟩⟩⟩
    · exact ⟨_, term?_eq_some_iff.mpr ⟨tag, htag, .inr ⟨hs, rfl⟩⟩⟩

theorem isSome_option?_iff {s : List Char} :
    (option? s).isSome ↔ ∀ term ∈ Text.pieces ',' s, IsTerm term := by
  rw [option?, Option.map_eq_map, Option.isSome_map, isSome_mapM_iff]
  exact forall₂_congr fun _ _ => isSome_term?_iff

/-- **A line can be read exactly when it has an option and its options are made of terms.** -/
theorem isSome_ofPlusLine?_iff {s : List Char} : (ofPlusLine? s).isSome ↔ IsPlusLine s := by
  have hread : ((Text.words s).mapM option?).isSome ↔
      ∀ option ∈ Text.words s, ∀ term ∈ Text.pieces ',' option, IsTerm term := by
    rw [isSome_mapM_iff]
    exact forall₂_congr fun _ _ => isSome_option?_iff
  rw [IsPlusLine, ← hread, Option.isSome_iff_exists, Option.isSome_iff_exists]
  simp only [ofPlusLine?_eq_some_iff, ← mapM_eq_some_iff]
  constructor
  · rintro ⟨-, hne, cs, hcs, -⟩
    exact ⟨hne, cs, hcs⟩
  · rintro ⟨hne, cs, hcs⟩
    exact ⟨disj cs, hne, cs, hcs, rfl⟩

instance (s : List Char) : Decidable (IsPlusLine s) := decidable_of_iff _ isSome_ofPlusLine?_iff

/-! ## 2. When a line holds -/

/-- Whether a term holds where exactly the tags with `satisfied` do. -/
def termHolds (satisfied : String → Bool) : List Char → Bool
  | '!' :: s => !satisfied (String.ofList s)
  | s => satisfied (String.ofList s)

theorem map_eq_map_of_forall₂ {α β γ : Type} {R : α → β → Prop} {f : α → γ} {g : β → γ}
    {xs : List α} {ys : List β} (h : List.Forall₂ R xs ys) (hR : ∀ x y, R x y → g y = f x) :
    ys.map g = xs.map f := by
  induction h with
  | nil => rfl
  | cons hxy _ ih => rw [List.map_cons, List.map_cons, hR _ _ hxy, ih]

/-- Whether a line holds: all terms of one of its options do. -/
def plusLineHolds (satisfied : String → Bool) (s : List Char) : Bool :=
  (Text.words s).any fun option => (Text.pieces ',' option).all (termHolds satisfied)

variable (satisfied : String → Bool)

theorem holds_of_term? {s : List Char} {c : Constraint} (h : term? s = some c) :
    c.holds satisfied = termHolds satisfied s := by
  obtain ⟨tag, htag, ⟨rfl, rfl⟩ | ⟨rfl, rfl⟩⟩ := term?_eq_some_iff.mp h
  · rw [holds_tag, termHolds]
    rintro s rfl
    exact not_isTagText_not s htag
  · rw [holds_not, holds_tag, termHolds]

theorem holds_of_option? {s : List Char} {c : Constraint} (h : option? s = some c) :
    c.holds satisfied = (Text.pieces ',' s).all (termHolds satisfied) := by
  obtain ⟨cs, hcs, rfl⟩ := option?_eq_some_iff.mp h
  have hterms := map_eq_map_of_forall₂ hcs fun _ _ => holds_of_term? satisfied
  rw [holds_conj]
  simpa only [List.all_map, Function.id_comp] using congrArg (List.all · id) hterms

/-- **A line that is read holds when all terms of one of its options do.** -/
theorem holds_of_ofPlusLine? {s : List Char} {c : Constraint} (h : ofPlusLine? s = some c) :
    c.holds satisfied = plusLineHolds satisfied s := by
  obtain ⟨-, cs, hcs, rfl⟩ := ofPlusLine?_eq_some_iff.mp h
  have hoptions := map_eq_map_of_forall₂ hcs fun _ _ => holds_of_option? satisfied
  rw [holds_disj, plusLineHolds]
  simpa only [List.any_map, Function.id_comp] using congrArg (List.any · id) hoptions

/-! ## 3. The line as an expression -/

/-- An option with `&&` between its terms. -/
def optionExpression (s : List Char) : List Char :=
  Text.joined " && ".toList (Text.pieces ',' s)

/-- A line with `||` between its options and `&&` between their terms. -/
def lineExpression (s : List Char) : List Char :=
  Text.joined " || ".toList ((Text.words s).map optionExpression)

/-- The text spells the tokens, all of which can be written, and the derivation they are of has at
most one level of nesting. -/
structure Spells (s : List Char) (ts : List Token) (nesting : Nat) : Prop where
  spelled_eq : spelled ts = s
  valid : ∀ t ∈ ts, t.Valid
  nesting_le : nesting ≤ 1

/-- A separator between two texts. -/
theorem Spells.append {s s' : List Char} {ts ts' : List Token} {n n' : Nat} {sep : Token}
    (hsep : sep.Valid) (h : Spells s ts n) (h' : Spells s' ts' n') :
    Spells (s ++ sep.spelled ++ s') (ts ++ sep :: ts') (max n n') where
  spelled_eq := by
    rw [spelled_append, spelled_cons, h.spelled_eq, h'.spelled_eq, List.append_assoc]
  valid := List.forall_mem_append.mpr ⟨h.valid, List.forall_mem_cons.mpr ⟨hsep, h'.valid⟩⟩
  nesting_le := Nat.max_le.mpr ⟨h.nesting_le, h'.nesting_le⟩

theorem exists_operand_of_term? {s : List Char} {c : Constraint} (h : term? s = some c) :
    ∃ o : Operand, Spells s o.tokens o.nesting ∧ o.constraint = c := by
  obtain ⟨tag, htag, ⟨rfl, rfl⟩ | ⟨rfl, rfl⟩⟩ := term?_eq_some_iff.mp h
  · refine ⟨.tag (String.ofList s), ⟨?_, ?_, Nat.zero_le 1⟩, rfl⟩
    · simp [Operand.tokens, spelled, Token.spelled, Token.text]
    · simpa [Operand.tokens, Token.Valid] using htag
  · refine ⟨.not (.tag (String.ofList tag)), ⟨?_, ?_, Nat.le_refl 1⟩, rfl⟩
    · simp [Operand.tokens, spelled, Token.spelled, Token.text]
    · simpa [Operand.tokens, Token.Valid] using htag

theorem exists_conjunction_of_terms {ts : List (List Char)} {cs : List Constraint} (hne : ts ≠ [])
    (h : List.Forall₂ (fun t c => term? t = some c) ts cs) :
    ∃ k : Conjunction, Spells (Text.joined " && ".toList ts) k.tokens k.nesting ∧ k.terms = cs := by
  induction h with
  | nil => exact absurd rfl hne
  | @cons t c ts cs hterm hterms ih =>
    obtain ⟨o, ho, rfl⟩ := exists_operand_of_term? hterm
    cases hterms with
    | nil => exact ⟨.one o, ho, rfl⟩
    | cons =>
      obtain ⟨k, hk, hks⟩ := ih (List.cons_ne_nil _ _)
      have hand : Token.and.Valid := trivial
      exact ⟨.more o k, ho.append hand hk, by rw [Conjunction.terms, hks]⟩

theorem exists_disjunction_of_options {os : List (List Char)} {cs : List Constraint} (hne : os ≠ [])
    (h : List.Forall₂ (fun o c => option? o = some c) os cs) :
    ∃ d : Disjunction,
      Spells (Text.joined " || ".toList (os.map optionExpression)) d.tokens d.nesting ∧
      d.terms = cs := by
  induction h with
  | nil => exact absurd rfl hne
  | @cons o c os cs hoption hoptions ih =>
    obtain ⟨ks, hks, rfl⟩ := option?_eq_some_iff.mp hoption
    obtain ⟨k, hk, rfl⟩ := exists_conjunction_of_terms (Text.pieces_ne_nil ',' o) hks
    cases hoptions with
    | nil => exact ⟨.one k, hk, rfl⟩
    | cons =>
      obtain ⟨d, hd, hds⟩ := ih (List.cons_ne_nil _ _)
      have hor : Token.or.Valid := trivial
      exact ⟨.more k d, hk.append hor hd, by rw [Disjunction.terms, hds]⟩

/-- **A line that is read has a derivation that spells it as an expression.** -/
theorem exists_derivation_of_ofPlusLine? {s : List Char} {c : Constraint}
    (h : ofPlusLine? s = some c) :
    ∃ d : Disjunction, Spells (lineExpression s) d.tokens d.nesting ∧ d.constraint = c := by
  obtain ⟨hne, cs, hcs, rfl⟩ := ofPlusLine?_eq_some_iff.mp h
  obtain ⟨d, hd, rfl⟩ := exists_disjunction_of_options hne hcs
  exact ⟨d, hd, rfl⟩

/-- **The two syntaxes agree.**  A line can be read exactly when it has an option and every term of
its options is a tag with at most one `!` in front; and the expression that has `&&` between the
terms of each option and `||` between the options is then read as the same constraint. -/
theorem ofPlusLine?_agrees_with_parse? (s : List Char) :
    ((ofPlusLine? s).isSome ↔ IsPlusLine s) ∧
    ∀ c, ofPlusLine? s = some c → parse? (lineExpression s) = some c := by
  refine ⟨isSome_ofPlusLine?_iff, fun c h => ?_⟩
  obtain ⟨d, hd, rfl⟩ := exists_derivation_of_ofPlusLine? h
  have hscan : Token.scan (lineExpression s) = some d.tokens := by
    rw [← hd.spelled_eq]
    exact d.scan_spelled hd.valid
  have hroom : d.nesting ≤ maxNesting := Nat.le_trans hd.nesting_le (by decide)
  exact parse?_eq_some_iff.mpr ⟨d, hscan, hroom, rfl⟩

/-- Two options, with a tab and a wide space between them, and a negated term. -/
theorem ofPlusLine?_agrees_with_parse?_of_two_options :
    IsPlusLine "linux,!arm\t\u3000darwin".toList ∧
      ofPlusLine? "linux,!arm\t\u3000darwin".toList =
        some (.any [.all [.tag "linux", .not (.tag "arm")], .tag "darwin"]) ∧
      parse? "linux && !arm || darwin".toList =
        some (.any [.all [.tag "linux", .not (.tag "arm")], .tag "darwin"]) := by
  have hwords : Text.words "linux,!arm\t\u3000darwin".toList =
      ["linux,!arm".toList, "darwin".toList] := by decide +kernel
  have hread : ofPlusLine? "linux,!arm\t\u3000darwin".toList =
      some (.any [.all [.tag "linux", .not (.tag "arm")], .tag "darwin"]) := by
    rw [ofPlusLine?, hwords]
    rfl
  have hexpression : lineExpression "linux,!arm\t\u3000darwin".toList =
      "linux && !arm || darwin".toList := by
    rw [lineExpression, hwords]
    rfl
  obtain ⟨hform, hagrees⟩ := ofPlusLine?_agrees_with_parse? "linux,!arm\t\u3000darwin".toList
  exact ⟨hform.mp (by rw [hread]; rfl), hread, hexpression ▸ hagrees _ hread⟩

end GoResolver.Constraint
