import GoResolver.Proofs.Constraint.Derivation

/-!
# Reading is deriving within the nesting bound

`ofTokens?` accepts a token list exactly when the grammar derives it with at most `maxNesting`
levels, and then answers the constraint of its derivation.

## How the induction runs

`Reader.unary` recurses on the room that is left, a derivation on its constructors, and so the two
directions are two different inductions.

* What is read is derived: by induction on the room (`exists_of_unary`).  A chain is read by a loop,
  and `Chained` says once what a loop that succeeded has read.
* What is derived is read: by induction on the derivation (`Operand.unary_tokens`), for every room
  that is at least its nesting.  The tokens that follow are arbitrary after an operand; after a
  chain no separator may follow, or the loop would go on.

The room is spent on `!` and `(` alike and given back after each, which no statement here has to
mention: a derivation's nesting is a maximum over its parts, and each part is read with the same
room.
-/

namespace GoResolver.Constraint

namespace Reader

/-! ## 1. What a chain reads -/

/-- The reading of a chain: items with the separator between them, and no separator after the
last. -/
inductive Chained {α : Type} (sep : Token) (item : Reader α) :
    List Token → List α → List Token → Prop where
  | last {ts r : List Token} {x : α} :
      item.run ts = some (x, r) → r.head? ≠ some sep → Chained sep item ts [x] r
  | more {ts r rest : List Token} {x : α} {xs : List α} :
      item.run ts = some (x, sep :: r) → Chained sep item r xs rest →
      Chained sep item ts (x :: xs) rest

variable {α : Type} {sep : Token} {item : Reader α}

theorem chained_of_chainRun {ts r : List Token} {xs : List α}
    (h : chainRun sep item ts = some (xs, r)) : Chained sep item ts xs r := by
  fun_induction chainRun sep item ts generalizing xs r with
  | case1 ts hitem => simp at h
  | case2 ts x hitem =>
    simp only [Option.some.injEq, Prod.mk.injEq] at h
    obtain ⟨rfl, rfl⟩ := h
    exact .last hitem (by simp)
  | case3 ts x rest hitem hnone ih => simp at h
  | case4 ts x rest ys rest' hsome hitem ih =>
    simp only [Option.some.injEq, Prod.mk.injEq] at h
    obtain ⟨rfl, rfl⟩ := h
    exact .more hitem (ih hsome)
  | case5 ts x t rest hitem hne =>
    simp only [Option.some.injEq, Prod.mk.injEq] at h
    obtain ⟨rfl, rfl⟩ := h
    exact .last hitem (by simpa using hne)

theorem chainRun_of_chained {ts r : List Token} {xs : List α} (h : Chained sep item ts xs r) :
    chainRun sep item ts = some (xs, r) := by
  induction h with
  | @last ts r x hitem hsep =>
    rw [chainRun.eq_def]
    cases r with
    | nil => split <;> simp_all
    | cons t r => split <;> simp_all
  | more hitem _ ih =>
    rw [chainRun.eq_def]
    split <;> simp_all

/-- A reader of chains reads what the chain reads, and puts it together. -/
theorem map_chain_run_eq_some_iff {β : Type} {f : List α → β} {ts r : List Token} {y : β} :
    ((chain sep item).map f).run ts = some (y, r) ↔ ∃ xs, Chained sep item ts xs r ∧ f xs = y := by
  constructor
  · intro h
    obtain ⟨⟨xs, r'⟩, hrun, hp⟩ := Option.map_eq_some_iff.mp h
    obtain ⟨rfl, rfl⟩ := Prod.mk.inj hp
    exact ⟨xs, chained_of_chainRun hrun, rfl⟩
  · rintro ⟨xs, hxs, rfl⟩
    exact Option.map_eq_some_iff.mpr ⟨(xs, r), chainRun_of_chained hxs, rfl⟩

theorem conjunction_run_eq_some_iff {u : Reader Constraint} {ts r : List Token} {c : Constraint} :
    (conjunction u).run ts = some (c, r) ↔ ∃ cs, Chained .and u ts cs r ∧ conj cs = c := by
  rw [conjunction]
  exact map_chain_run_eq_some_iff

theorem expression_run_eq_some_iff {u : Reader Constraint} {ts r : List Token} {c : Constraint} :
    (expression u).run ts = some (c, r) ↔
      ∃ cs, Chained .or (conjunction u) ts cs r ∧ disj cs = c := by
  rw [expression]
  exact map_chain_run_eq_some_iff

/-! ## 2. What is read is derived -/

/-- Everything that a reader of operands can have read. -/
theorem operandRun_cases {inner : Option (Reader Constraint)} {ts r : List Token} {c : Constraint}
    (h : operandRun inner ts = some (c, r)) :
    (∃ name, ts = .tag name :: r ∧ c = .tag name) ∨
    (∃ u s c', inner = some u ∧ ts = .not :: s ∧ u.run s = some (c', r) ∧ c = .not c') ∨
    (∃ u s, inner = some u ∧ ts = .lparen :: s ∧
      (expression u).run s = some (c, .rparen :: r)) := by
  unfold operandRun at h
  split at h
  · next name s =>
    simp only [Option.some.injEq, Prod.mk.injEq] at h
    obtain ⟨rfl, rfl⟩ := h
    exact .inl ⟨name, rfl, rfl⟩
  · next s =>
    simp only [Option.bind_eq_bind, Option.bind_eq_some_iff, Option.some.injEq] at h
    obtain ⟨u, hu, ⟨c', s'⟩, hrun, hp⟩ := h
    obtain ⟨rfl, rfl⟩ := Prod.mk.inj hp
    exact .inr (.inl ⟨u, s, c', hu, rfl, hrun, rfl⟩)
  · next s =>
    simp only [Option.bind_eq_bind, Option.bind_eq_some_iff] at h
    obtain ⟨u, hu, hrun⟩ := h
    split at hrun
    · next c' s' hexpr =>
      simp only [Option.some.injEq, Prod.mk.injEq] at hrun
      obtain ⟨rfl, rfl⟩ := hrun
      exact .inr (.inr ⟨u, s, hu, rfl, hexpr⟩)
    · simp at hrun
  · simp at h

/-- Whatever the reader reads is an operand with at most `n` levels. -/
def ReadsOperands (n : Nat) (u : Reader Constraint) : Prop :=
  ∀ ⦃ts r : List Token⦄ ⦃c : Constraint⦄, u.run ts = some (c, r) →
    ∃ o : Operand, o.tokens ++ r = ts ∧ o.nesting ≤ n ∧ o.constraint = c

theorem ReadsOperands.exists_conjunction {n : Nat} {u : Reader Constraint}
    (hu : ReadsOperands n u) {ts r : List Token} {cs : List Constraint}
    (h : Chained .and u ts cs r) :
    ∃ c : Conjunction, c.tokens ++ r = ts ∧ c.nesting ≤ n ∧ c.terms = cs := by
  induction h with
  | last hrun _ =>
    obtain ⟨o, htokens, hn, rfl⟩ := hu hrun
    exact ⟨.one o, htokens, hn, rfl⟩
  | more hrun _ ih =>
    obtain ⟨o, htokens, hn, rfl⟩ := hu hrun
    obtain ⟨c, hrest, hc, rfl⟩ := ih
    refine ⟨.more o c, ?_, Nat.max_le.mpr ⟨hn, hc⟩, rfl⟩
    rw [Conjunction.tokens, List.append_assoc, List.cons_append, hrest, htokens]

theorem ReadsOperands.exists_disjunction {n : Nat} {u : Reader Constraint}
    (hu : ReadsOperands n u) {ts r : List Token} {cs : List Constraint}
    (h : Chained .or (conjunction u) ts cs r) :
    ∃ d : Disjunction, d.tokens ++ r = ts ∧ d.nesting ≤ n ∧ d.terms = cs := by
  induction h with
  | last hrun _ =>
    obtain ⟨cs, hcs, rfl⟩ := conjunction_run_eq_some_iff.mp hrun
    obtain ⟨c, htokens, hn, rfl⟩ := hu.exists_conjunction hcs
    exact ⟨.one c, htokens, hn, rfl⟩
  | more hrun _ ih =>
    obtain ⟨cs, hcs, rfl⟩ := conjunction_run_eq_some_iff.mp hrun
    obtain ⟨c, htokens, hn, rfl⟩ := hu.exists_conjunction hcs
    obtain ⟨d, hrest, hd, rfl⟩ := ih
    refine ⟨.more c d, ?_, Nat.max_le.mpr ⟨hn, hd⟩, rfl⟩
    rw [Disjunction.tokens, List.append_assoc, List.cons_append, hrest, htokens]

theorem ReadsOperands.exists_expression {n : Nat} {u : Reader Constraint}
    (hu : ReadsOperands n u) {ts r : List Token} {c : Constraint}
    (h : (expression u).run ts = some (c, r)) :
    ∃ d : Disjunction, d.tokens ++ r = ts ∧ d.nesting ≤ n ∧ d.constraint = c := by
  obtain ⟨cs, hcs, rfl⟩ := expression_run_eq_some_iff.mp h
  obtain ⟨d, htokens, hn, rfl⟩ := hu.exists_disjunction hcs
  exact ⟨d, htokens, hn, rfl⟩

/-- **What is read with room for `n` levels has at most `n` levels.** -/
theorem readsOperands_unary : ∀ n : Nat, ReadsOperands n (unary n)
  | 0 => by
    intro ts r c h
    rcases operandRun_cases h with ⟨name, rfl, rfl⟩ | ⟨u, _, _, hu, _⟩ | ⟨u, _, hu, _⟩
    · exact ⟨.tag name, rfl, Nat.le_refl 0, rfl⟩
    · simp at hu
    · simp at hu
  | n + 1 => by
    intro ts r c h
    rcases operandRun_cases h with ⟨name, rfl, rfl⟩ | ⟨u, s, c', hu, rfl, hrun, rfl⟩ |
      ⟨u, s, hu, rfl, hrun⟩
    · exact ⟨.tag name, rfl, Nat.zero_le _, rfl⟩
    · obtain rfl := Option.some.inj hu
      obtain ⟨o, rfl, hn, rfl⟩ := readsOperands_unary n hrun
      exact ⟨.not o, rfl, Nat.succ_le_succ hn, rfl⟩
    · obtain rfl := Option.some.inj hu
      obtain ⟨d, rfl, hn, rfl⟩ := (readsOperands_unary n).exists_expression hrun
      refine ⟨.group d, ?_, Nat.succ_le_succ hn, rfl⟩
      simp [Operand.tokens]

end Reader

/-! ## 3. What is derived is read -/

open Reader

mutual

theorem Operand.unary_tokens : ∀ (o : Operand) {n : Nat}, o.nesting ≤ n → ∀ r : List Token,
    (unary n).run (o.tokens ++ r) = some (o.constraint, r)
  | .tag name, 0, _, r => rfl
  | .tag name, n + 1, _, r => rfl
  | .not o, 0, h, r => by simp [Operand.nesting] at h
  | .not o, n + 1, h, r => by
    have ho := o.unary_tokens (Nat.le_of_succ_le_succ h) r
    show operandRun (some (unary n)) (.not :: (o.tokens ++ r)) = _
    simp only [operandRun, Option.bind_eq_bind, Option.bind_some, ho, Operand.constraint]
  | .group d, 0, h, r => by simp [Operand.nesting] at h
  | .group d, n + 1, h, r => by
    have hd := d.expression_tokens (Nat.le_of_succ_le_succ h) (r := .rparen :: r)
      (by simp) (by simp)
    show operandRun (some (unary n)) (.lparen :: ((d.tokens ++ [.rparen]) ++ r)) = _
    rw [List.append_assoc, List.cons_append, List.nil_append]
    simp only [operandRun, Option.bind_eq_bind, Option.bind_some, hd, Operand.constraint,
      Disjunction.constraint]

theorem Conjunction.chained_tokens : ∀ (c : Conjunction) {n : Nat}, c.nesting ≤ n →
    ∀ {r : List Token}, r.head? ≠ some .and →
    Chained .and (unary n) (c.tokens ++ r) c.terms r
  | .one o, n, h, r, hand => .last (o.unary_tokens h r) hand
  | .more o c, n, h, r, hand => by
    have ho := o.unary_tokens (Nat.le_trans (Nat.le_max_left _ _) h) (.and :: (c.tokens ++ r))
    have hc := c.chained_tokens (Nat.le_trans (Nat.le_max_right _ _) h) hand
    rw [Conjunction.tokens, List.append_assoc, List.cons_append]
    exact .more ho hc

theorem Disjunction.chained_tokens : ∀ (d : Disjunction) {n : Nat}, d.nesting ≤ n →
    ∀ {r : List Token}, r.head? ≠ some .and → r.head? ≠ some .or →
    Chained .or (conjunction (unary n)) (d.tokens ++ r) d.terms r
  | .one c, n, h, r, hand, hor =>
    .last (conjunction_run_eq_some_iff.mpr ⟨c.terms, c.chained_tokens h hand, rfl⟩) hor
  | .more c d, n, h, r, hand, hor => by
    have hc := c.chained_tokens (Nat.le_trans (Nat.le_max_left _ _) h) (r := .or :: (d.tokens ++ r))
      (by simp)
    have hd := d.chained_tokens (Nat.le_trans (Nat.le_max_right _ _) h) hand hor
    rw [Disjunction.tokens, List.append_assoc, List.cons_append]
    exact .more (conjunction_run_eq_some_iff.mpr ⟨c.terms, hc, rfl⟩) hd

theorem Disjunction.expression_tokens (d : Disjunction) {n : Nat} (h : d.nesting ≤ n)
    {r : List Token} (hand : r.head? ≠ some .and) (hor : r.head? ≠ some .or) :
    (expression (unary n)).run (d.tokens ++ r) = some (d.constraint, r) :=
  expression_run_eq_some_iff.mpr ⟨d.terms, d.chained_tokens h hand hor, rfl⟩

end

/-! ## 4. Whole token lists and texts -/

theorem ofTokens?_eq_some_iff_run {ts : List Token} {c : Constraint} :
    ofTokens? ts = some c ↔ (expression (unary maxNesting)).run ts = some (c, []) := by
  unfold ofTokens?
  constructor
  · intro h
    split at h
    · next c' hrun => rw [hrun, Option.some.inj h]
    · simp at h
  · intro h
    rw [h]

/-- A token list denotes the constraints of its derivations within the nesting bound. -/
theorem ofTokens?_eq_some_iff {ts : List Token} {c : Constraint} :
    ofTokens? ts = some c ↔
      ∃ d : Disjunction, d.tokens = ts ∧ d.nesting ≤ maxNesting ∧ d.constraint = c := by
  rw [ofTokens?_eq_some_iff_run]
  constructor
  · intro h
    obtain ⟨d, htokens, hn, hc⟩ := (readsOperands_unary maxNesting).exists_expression h
    exact ⟨d, by rw [← htokens, List.append_nil], hn, hc⟩
  · rintro ⟨d, rfl, hn, rfl⟩
    have h := d.expression_tokens hn (r := []) (by simp) (by simp)
    rwa [List.append_nil] at h

/-- A text denotes the constraints of the derivations of its tokens. -/
theorem parse?_eq_some_iff {s : List Char} {c : Constraint} :
    parse? s = some c ↔ ∃ d : Disjunction, Token.scan s = some d.tokens ∧
      d.nesting ≤ maxNesting ∧ d.constraint = c := by
  rw [parse?, Option.bind_eq_some_iff]
  constructor
  · rintro ⟨ts, hscan, hts⟩
    obtain ⟨d, rfl, hnesting, hc⟩ := ofTokens?_eq_some_iff.mp hts
    exact ⟨d, hscan, hnesting, hc⟩
  · rintro ⟨d, hscan, hnesting, hc⟩
    exact ⟨d.tokens, hscan, ofTokens?_eq_some_iff.mpr ⟨d, rfl, hnesting, hc⟩⟩

/-- An expression is read when its tokens are derived and do not nest too deep. -/
theorem parse?_eq_some_of_tokens {s : List Char} (d : Disjunction)
    (hscan : Token.scan s = some d.tokens) (hnesting : d.nesting ≤ maxNesting) :
    parse? s = some d.constraint :=
  parse?_eq_some_iff.mpr ⟨d, hscan, hnesting, rfl⟩

/-- **A token list is accepted exactly when the grammar derives it within the nesting bound.**  The
derivation of an accepted list is the only one it has, whatever the nesting; the constraint read has
the truth value of that derivation under every assignment; and no token is left over. -/
theorem ofTokens?_exact (ts : List Token) :
    ((ofTokens? ts).isSome ↔ ∃ d : Disjunction, d.tokens = ts ∧ d.nesting ≤ maxNesting) ∧
    ∀ c : Constraint, ofTokens? ts = some c →
      (expression (unary maxNesting)).run ts = some (c, []) ∧
      ∃ d : Disjunction, d.tokens = ts ∧ d.nesting ≤ maxNesting ∧
        (∀ d' : Disjunction, d'.tokens = ts → d' = d) ∧
        ∀ satisfied : String → Bool, c.holds satisfied = d.holds satisfied := by
  constructor
  · rw [Option.isSome_iff_exists]
    constructor
    · rintro ⟨c, hc⟩
      obtain ⟨d, htokens, hn, -⟩ := ofTokens?_eq_some_iff.mp hc
      exact ⟨d, htokens, hn⟩
    · rintro ⟨d, htokens, hn⟩
      exact ⟨d.constraint, ofTokens?_eq_some_iff.mpr ⟨d, htokens, hn, rfl⟩⟩
  · intro c hc
    refine ⟨ofTokens?_eq_some_iff_run.mp hc, ?_⟩
    obtain ⟨d, htokens, hn, rfl⟩ := ofTokens?_eq_some_iff.mp hc
    refine ⟨d, htokens, hn, ?_, fun satisfied => d.holds_constraint satisfied⟩
    intro d' htokens'
    exact Disjunction.eq_of_tokens_eq (htokens'.trans htokens.symm)

end GoResolver.Constraint
