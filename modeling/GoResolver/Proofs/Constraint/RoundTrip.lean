import GoResolver.Proofs.Constraint.Lexing
import GoResolver.Proofs.Constraint.Reading

/-!
# What reading gives, and printing it again

The constraints that `parse?` can answer are the canonical ones whose printed text is not nested too
deeply, and each of them is what its printed text is read as (`parse?_image`).

## How the proof goes

A text and a constraint meet in a derivation, which spells the tokens of the one and stands for the
other.

* A canonical constraint has a derivation that spells its printed tokens
  (`printable_of_canonical`), by induction on the constraint.  There is one for each kind of place,
  because the parentheses around a constraint depend on where it stands.
* No derivation of a constraint is cheaper than that one: `Disjunction.whole_le` compares nesting
  and parentheses of *any* derivation with those of the printed constraint, by induction on the
  derivation.  So printing what was read again never makes it too deep.
* A derivation stands for a canonical constraint exactly when its tags can be written
  (`Disjunction.canonical_constraint_iff`), and the tags of a text that was scanned can.
-/

namespace GoResolver.Constraint

/-! ## 1. What printing costs -/

mutual

/-- How many `!` and `(` stand around the deepest position of a constraint that is printed in a
slot. -/
def nestingIn (slot : Slot) : Constraint → Nat
  | .tag _ => 0
  | .not c => nestingIn .operand c + 1
  | .all cs => nestingBetween .operand cs + (if slot = .operand then 1 else 0)
  | .any cs => nestingBetween .disjunct cs + (if slot ≠ .whole then 1 else 0)

/-- The same for constraints in slots of one kind. -/
def nestingBetween (slot : Slot) : List Constraint → Nat
  | [] => 0
  | c :: cs => max (nestingIn slot c) (nestingBetween slot cs)

end

/-- Printed in a slot, a constraint is not nested more deeply and has no more parentheses. -/
structure CostsAtMost (slot : Slot) (c : Constraint) (nesting parens : Nat) : Prop where
  nesting_le : c.nestingIn slot ≤ nesting
  parens_le : (c.tokensIn slot).count .lparen ≤ parens

/-- The same for constraints in slots of one kind, with a separator between them. -/
structure ChainCostsAtMost (sep : Token) (slot : Slot) (cs : List Constraint)
    (nesting parens : Nat) : Prop where
  nesting_le : nestingBetween slot cs ≤ nesting
  parens_le : (tokensBetween sep slot cs).count .lparen ≤ parens

theorem count_lparen_enclosed (needed : Bool) (ts : List Token) :
    (enclosed needed ts).count .lparen = ts.count .lparen + (if needed then 1 else 0) := by
  cases needed with
  | false => rfl
  | true => simp [enclosed]

/-- Less room never makes a constraint cheaper, and parentheses are the most that it can cost. -/
theorem nestingIn_le_and_count_le (c : Constraint) :
    (c.nestingIn .whole ≤ c.nestingIn .disjunct ∧ c.nestingIn .disjunct ≤ c.nestingIn .operand ∧
      c.nestingIn .operand ≤ c.nestingIn .whole + 1) ∧
    ((c.tokensIn .whole).count .lparen ≤ (c.tokensIn .disjunct).count .lparen ∧
      (c.tokensIn .disjunct).count .lparen ≤ (c.tokensIn .operand).count .lparen ∧
      (c.tokensIn .operand).count .lparen ≤ (c.tokensIn .whole).count .lparen + 1) := by
  cases c with
  | tag name => simp [nestingIn, tokensIn]
  | not c => simp [nestingIn, tokensIn]
  | all cs => simp [nestingIn, tokensIn, count_lparen_enclosed]
  | any cs => simp [nestingIn, tokensIn, count_lparen_enclosed]

namespace CostsAtMost

variable {c : Constraint} {nesting parens : Nat}

theorem disjunct (h : CostsAtMost .operand c nesting parens) :
    CostsAtMost .disjunct c nesting parens := by
  obtain ⟨⟨-, hnesting, -⟩, -, hparens, -⟩ := c.nestingIn_le_and_count_le
  exact ⟨Nat.le_trans hnesting h.nesting_le, Nat.le_trans hparens h.parens_le⟩

theorem whole (h : CostsAtMost .disjunct c nesting parens) :
    CostsAtMost .whole c nesting parens := by
  obtain ⟨⟨hnesting, -⟩, hparens, -⟩ := c.nestingIn_le_and_count_le
  exact ⟨Nat.le_trans hnesting h.nesting_le, Nat.le_trans hparens h.parens_le⟩

theorem operand (h : CostsAtMost .whole c nesting parens) :
    CostsAtMost .operand c (nesting + 1) (parens + 1) := by
  obtain ⟨⟨-, -, hnesting⟩, -, -, hparens⟩ := c.nestingIn_le_and_count_le
  exact ⟨Nat.le_trans hnesting (Nat.succ_le_succ h.nesting_le),
    Nat.le_trans hparens (Nat.succ_le_succ h.parens_le)⟩

end CostsAtMost

namespace ChainCostsAtMost

variable {c : Constraint} {cs : List Constraint} {nesting nesting' parens parens' : Nat}
  {sep : Token} {slot : Slot}

theorem singleton (h : CostsAtMost slot c nesting parens) :
    ChainCostsAtMost sep slot [c] nesting parens := by
  refine ⟨?_, ?_⟩
  · rw [nestingBetween, nestingBetween, Nat.max_zero]
    exact h.nesting_le
  · rw [tokensBetween]
    exact h.parens_le

theorem cons (hne : cs ≠ []) (hsep : sep ≠ .lparen) (h : CostsAtMost slot c nesting parens)
    (hrest : ChainCostsAtMost sep slot cs nesting' parens') :
    ChainCostsAtMost sep slot (c :: cs) (max nesting nesting') (parens + parens') := by
  obtain ⟨c', cs, rfl⟩ := List.exists_cons_of_ne_nil hne
  refine ⟨?_, ?_⟩
  · have hnesting := h.nesting_le
    have hnesting' := hrest.nesting_le
    rw [nestingBetween]
    omega
  · rw [tokensBetween, List.count_append, List.count_cons_of_ne hsep]
    exact Nat.add_le_add h.parens_le hrest.parens_le

/-- A conjunction costs what its terms cost, where no parentheses are needed around it. -/
theorem conj (hne : cs ≠ []) (h : ChainCostsAtMost .and .operand cs nesting parens) :
    CostsAtMost .disjunct (Constraint.conj cs) nesting parens := by
  match cs with
  | [c] =>
    have hc : CostsAtMost .operand c nesting parens := by
      refine ⟨?_, h.parens_le⟩
      have hnesting := h.nesting_le
      rwa [nestingBetween, nestingBetween, Nat.max_zero] at hnesting
    exact hc.disjunct
  | c :: c' :: cs => exact ⟨h.nesting_le, h.parens_le⟩

/-- A disjunction costs what its terms cost, where no parentheses are needed around it. -/
theorem disj (hne : cs ≠ []) (h : ChainCostsAtMost .or .disjunct cs nesting parens) :
    CostsAtMost .whole (Constraint.disj cs) nesting parens := by
  match cs with
  | [c] =>
    have hc : CostsAtMost .disjunct c nesting parens := by
      refine ⟨?_, h.parens_le⟩
      have hnesting := h.nesting_le
      rwa [nestingBetween, nestingBetween, Nat.max_zero] at hnesting
    exact hc.whole
  | c :: c' :: cs => exact ⟨h.nesting_le, h.parens_le⟩

end ChainCostsAtMost

/-! ## 2. No derivation is cheaper -/

theorem Conjunction.terms_ne_nil (k : Conjunction) : k.terms ≠ [] := by
  cases k <;> exact List.cons_ne_nil _ _

theorem Disjunction.terms_ne_nil (d : Disjunction) : d.terms ≠ [] := by
  cases d <;> exact List.cons_ne_nil _ _

mutual

theorem Operand.costsAtMost :
    ∀ o : Operand, CostsAtMost .operand o.constraint o.nesting (o.tokens.count .lparen)
  | .tag name => ⟨Nat.le_refl _, Nat.le_refl _⟩
  | .not o => by
    obtain ⟨hnesting, hparens⟩ := o.costsAtMost
    refine ⟨Nat.succ_le_succ hnesting, ?_⟩
    rw [Operand.constraint, tokensIn, Operand.tokens, List.count_cons_of_ne (by decide),
      List.count_cons_of_ne (by decide)]
    exact hparens
  | .group d => by
    -- whatever parentheses the constraint needs in an operand's place, the group has them
    have hd := (d.chainCostsAtMost.disj d.terms_ne_nil).operand
    refine ⟨hd.nesting_le, Nat.le_trans hd.parens_le ?_⟩
    rw [Operand.tokens, List.count_cons_self, List.count_append]
    omega

theorem Conjunction.chainCostsAtMost :
    ∀ k : Conjunction, ChainCostsAtMost .and .operand k.terms k.nesting (k.tokens.count .lparen)
  | .one o => .singleton o.costsAtMost
  | .more o k => by
    have hsep : Token.and ≠ .lparen := by decide
    have h := ChainCostsAtMost.cons k.terms_ne_nil hsep o.costsAtMost k.chainCostsAtMost
    rw [Conjunction.tokens, List.count_append, List.count_cons_of_ne (by decide)]
    exact h

theorem Disjunction.chainCostsAtMost :
    ∀ d : Disjunction, ChainCostsAtMost .or .disjunct d.terms d.nesting (d.tokens.count .lparen)
  | .one k => .singleton (k.chainCostsAtMost.conj k.terms_ne_nil)
  | .more k d => by
    have hsep : Token.or ≠ .lparen := by decide
    have h := ChainCostsAtMost.cons d.terms_ne_nil hsep
      (k.chainCostsAtMost.conj k.terms_ne_nil) d.chainCostsAtMost
    rw [Disjunction.tokens, List.count_append, List.count_cons_of_ne (by decide)]
    exact h

end

/-- **No derivation of a constraint is nested less deeply, or has fewer parentheses, than the
constraint is printed with.** -/
theorem Disjunction.whole_le (d : Disjunction) :
    d.constraint.nestingIn .whole ≤ d.nesting ∧
      (d.constraint.tokensIn .whole).count .lparen ≤ d.tokens.count .lparen := by
  obtain ⟨hnesting, hparens⟩ := d.chainCostsAtMost.disj d.terms_ne_nil
  exact ⟨hnesting, hparens⟩

/-! ## 3. The derivation of a printed constraint -/

/-- In every slot, the printed tokens of the constraint have a derivation that stands for it and is
nested as deeply as `nestingIn` says. -/
structure Printable (c : Constraint) : Prop where
  operand : ∃ o : Operand, o.tokens = c.tokensIn .operand ∧ o.constraint = c ∧
    o.nesting = c.nestingIn .operand
  disjunct : ∃ k : Conjunction, k.tokens = c.tokensIn .disjunct ∧ conj k.terms = c ∧
    k.nesting = c.nestingIn .disjunct
  whole : ∃ d : Disjunction, d.tokens = c.tokensIn .whole ∧ d.constraint = c ∧
    d.nesting = c.nestingIn .whole

/-- Terms that are printable as operands can be printed between `&&`. -/
theorem exists_conjunction_of_printable {cs : List Constraint} (hne : cs ≠ [])
    (h : ∀ c ∈ cs, Printable c) :
    ∃ k : Conjunction, k.tokens = tokensBetween .and .operand cs ∧ k.terms = cs ∧
      k.nesting = nestingBetween .operand cs := by
  induction cs with
  | nil => exact absurd rfl hne
  | cons c cs ih =>
    obtain ⟨o, htokens, hconstraint, hnesting⟩ := (h c List.mem_cons_self).operand
    cases cs with
    | nil =>
      refine ⟨.one o, htokens, ?_, ?_⟩
      · rw [Conjunction.terms, hconstraint]
      · rw [Conjunction.nesting, hnesting, nestingBetween, nestingBetween, Nat.max_zero]
    | cons c' cs =>
      obtain ⟨k, htokens', hterms, hnesting'⟩ :=
        ih (List.cons_ne_nil c' cs) fun c'' hc'' => h c'' (List.mem_cons_of_mem c hc'')
      refine ⟨.more o k, ?_, ?_, ?_⟩
      · rw [Conjunction.tokens, htokens, htokens', tokensBetween]
      · rw [Conjunction.terms, hconstraint, hterms]
      · rw [Conjunction.nesting, hnesting, hnesting']
        rfl

/-- Terms that are printable can be printed between `||`. -/
theorem exists_disjunction_of_printable {cs : List Constraint} (hne : cs ≠ [])
    (h : ∀ c ∈ cs, Printable c) :
    ∃ d : Disjunction, d.tokens = tokensBetween .or .disjunct cs ∧ d.terms = cs ∧
      d.nesting = nestingBetween .disjunct cs := by
  induction cs with
  | nil => exact absurd rfl hne
  | cons c cs ih =>
    obtain ⟨k, htokens, hconstraint, hnesting⟩ := (h c List.mem_cons_self).disjunct
    cases cs with
    | nil =>
      refine ⟨.one k, htokens, ?_, ?_⟩
      · rw [Disjunction.terms, hconstraint]
      · rw [Disjunction.nesting, hnesting, nestingBetween, nestingBetween, Nat.max_zero]
    | cons c' cs =>
      obtain ⟨d, htokens', hterms, hnesting'⟩ :=
        ih (List.cons_ne_nil c' cs) fun c'' hc'' => h c'' (List.mem_cons_of_mem c hc'')
      refine ⟨.more k d, ?_, ?_, ?_⟩
      · rw [Disjunction.tokens, htokens, htokens', tokensBetween]
      · rw [Disjunction.terms, hconstraint, hterms]
      · rw [Disjunction.nesting, hnesting, hnesting']
        rfl

namespace Printable

theorem tag (name : String) : Printable (.tag name) where
  operand := ⟨.tag name, rfl, rfl, rfl⟩
  disjunct := ⟨.one (.tag name), rfl, rfl, rfl⟩
  whole := ⟨.one (.one (.tag name)), rfl, rfl, rfl⟩

theorem not {c : Constraint} (h : Printable c) : Printable (.not c) := by
  obtain ⟨o, htokens, rfl, hnesting⟩ := h.operand
  have htokens' : ∀ slot, (Operand.not o).tokens = (Constraint.not o.constraint).tokensIn slot := by
    intro slot
    rw [Operand.tokens, htokens, tokensIn]
  have hnesting' : ∀ slot,
      (Operand.not o).nesting = (Constraint.not o.constraint).nestingIn slot := by
    intro slot
    rw [Operand.nesting, hnesting, nestingIn]
  exact ⟨⟨.not o, htokens' _, rfl, hnesting' _⟩, ⟨.one (.not o), htokens' _, rfl, hnesting' _⟩,
    ⟨.one (.one (.not o)), htokens' _, rfl, hnesting' _⟩⟩

theorem all {cs : List Constraint} (two : 2 ≤ cs.length) (h : ∀ c ∈ cs, Printable c) :
    Printable (.all cs) := by
  match cs with
  | c :: c' :: cs =>
    obtain ⟨k, htokens, hterms, hnesting⟩ :=
      exists_conjunction_of_printable (List.cons_ne_nil c (c' :: cs)) h
    have hconj : conj k.terms = .all (c :: c' :: cs) := by
      rw [hterms, conj]
      exact fun c'' => by simp
    -- only an operand's place asks for parentheses
    refine ⟨⟨.group (.one k), ?_, ?_, ?_⟩, ⟨k, htokens, hconj, hnesting⟩,
      ⟨.one k, htokens, hconj, hnesting⟩⟩
    · rw [Operand.tokens, Disjunction.tokens, htokens]
      rfl
    · exact hconj
    · rw [Operand.nesting, Disjunction.nesting, hnesting]
      rfl

theorem any {cs : List Constraint} (two : 2 ≤ cs.length) (h : ∀ c ∈ cs, Printable c) :
    Printable (.any cs) := by
  match cs with
  | c :: c' :: cs =>
    obtain ⟨d, htokens, hterms, hnesting⟩ :=
      exists_disjunction_of_printable (List.cons_ne_nil c (c' :: cs)) h
    have hdisj : disj d.terms = .any (c :: c' :: cs) := by
      rw [hterms, disj]
      exact fun c'' => by simp
    have htokens' : ∀ slot, slot ≠ .whole →
        (Operand.group d).tokens = tokensIn slot (.any (c :: c' :: cs)) := by
      intro slot hslot
      rw [Operand.tokens, htokens, tokensIn, enclosed, if_pos (by simpa using hslot)]
    have hnesting' : ∀ slot, slot ≠ .whole →
        (Operand.group d).nesting = nestingIn slot (.any (c :: c' :: cs)) := by
      intro slot hslot
      rw [Operand.nesting, hnesting, nestingIn, if_pos hslot]
    exact ⟨⟨.group d, htokens' _ (by decide), hdisj, hnesting' _ (by decide)⟩,
      ⟨.one (.group d), htokens' _ (by decide), hdisj, hnesting' _ (by decide)⟩,
      ⟨d, htokens, hdisj, hnesting⟩⟩

end Printable

/-- **A canonical constraint has a derivation that spells its printed tokens.** -/
theorem printable_of_canonical {c : Constraint} (h : Canonical c) : Printable c := by
  induction h with
  | tag _ => exact .tag _
  | not _ ih => exact ih.not
  | all two _ ih => exact .all two ih
  | any two _ ih => exact .any two ih

/-! ## 4. Tags that can be written -/

mutual

theorem Operand.canonical_constraint_iff : ∀ o : Operand,
    o.constraint.Canonical ↔ ∀ t ∈ o.tokens, t.Valid
  | .tag name => by
    rw [Operand.constraint, canonical_tag_iff, Operand.tokens, List.forall_mem_singleton,
      Token.Valid]
  | .not o => by
    rw [Operand.constraint, canonical_not_iff, o.canonical_constraint_iff, Operand.tokens,
      List.forall_mem_cons]
    exact (and_iff_right trivial).symm
  | .group d => by
    rw [Operand.constraint, canonical_disj_iff d.terms_ne_nil, d.canonical_terms_iff,
      Operand.tokens, List.forall_mem_cons, List.forall_mem_append, List.forall_mem_singleton]
    exact ⟨fun h => ⟨trivial, h, trivial⟩, fun h => h.2.1⟩

theorem Conjunction.canonical_terms_iff : ∀ k : Conjunction,
    (∀ c ∈ k.terms, c.Canonical) ↔ ∀ t ∈ k.tokens, t.Valid
  | .one o => by
    rw [Conjunction.terms, List.forall_mem_singleton, o.canonical_constraint_iff,
      Conjunction.tokens]
  | .more o k => by
    rw [Conjunction.terms, List.forall_mem_cons, o.canonical_constraint_iff,
      k.canonical_terms_iff, Conjunction.tokens, List.forall_mem_append, List.forall_mem_cons]
    exact and_congr_right fun _ => (and_iff_right trivial).symm

theorem Disjunction.canonical_terms_iff : ∀ d : Disjunction,
    (∀ c ∈ d.terms, c.Canonical) ↔ ∀ t ∈ d.tokens, t.Valid
  | .one k => by
    rw [Disjunction.terms, List.forall_mem_singleton, canonical_conj_iff k.terms_ne_nil,
      k.canonical_terms_iff, Disjunction.tokens]
  | .more k d => by
    rw [Disjunction.terms, List.forall_mem_cons, canonical_conj_iff k.terms_ne_nil,
      k.canonical_terms_iff, d.canonical_terms_iff, Disjunction.tokens, List.forall_mem_append,
      List.forall_mem_cons]
    exact and_congr_right fun _ => (and_iff_right trivial).symm

end

/-- **A derivation stands for a canonical constraint exactly when its tags can be written.** -/
theorem Disjunction.canonical_constraint_iff (d : Disjunction) :
    d.constraint.Canonical ↔ ∀ t ∈ d.tokens, t.Valid := by
  rw [Disjunction.constraint, canonical_disj_iff d.terms_ne_nil, d.canonical_terms_iff]

/-! ## 5. Derivations as texts -/

mutual

theorem Operand.readsBack : ∀ o : Operand, (∀ t ∈ o.tokens, t.Valid) → ReadsBack o.tokens
  | .tag name, h => .tag (h _ (List.mem_singleton_self _))
  | .not o, h => .cons (by simp) (o.readsBack fun t ht => h t (List.mem_cons_of_mem _ ht))
  | .group d, h => by
    have hd := d.readsBack fun t ht => h t (List.mem_cons_of_mem _ (List.mem_append_left _ ht))
    exact .cons (by simp) (hd.append_cons (by simp) .nil)

theorem Conjunction.readsBack : ∀ k : Conjunction, (∀ t ∈ k.tokens, t.Valid) →
    ReadsBack k.tokens
  | .one o, h => o.readsBack h
  | .more o k, h => by
    have ho := o.readsBack fun t ht => h t (List.mem_append_left _ ht)
    have hk := k.readsBack fun t ht =>
      h t (List.mem_append_right _ (List.mem_cons_of_mem _ ht))
    exact ho.append_cons (by simp) hk

theorem Disjunction.readsBack : ∀ d : Disjunction, (∀ t ∈ d.tokens, t.Valid) →
    ReadsBack d.tokens
  | .one k, h => k.readsBack h
  | .more k d, h => by
    have hk := k.readsBack fun t ht => h t (List.mem_append_left _ ht)
    have hd := d.readsBack fun t ht =>
      h t (List.mem_append_right _ (List.mem_cons_of_mem _ ht))
    exact hk.append_cons (by simp) hd

end

/-- **The text of a derivation is read as its tokens.** -/
theorem Disjunction.scan_spelled (d : Disjunction) (h : ∀ t ∈ d.tokens, t.Valid) :
    Token.scan (spelled d.tokens) = some d.tokens := by
  have hback := d.readsBack h [] fun c hc => nomatch hc
  rw [List.append_nil, Token.scan] at hback
  rw [hback]
  show some (d.tokens ++ []) = some d.tokens
  rw [List.append_nil]

/-! ## 6. The image of reading -/

/-- A text whose derivation has the given nesting.  A text has at most one derivation
(`Disjunction.eq_of_tokens_eq`). -/
def HasNesting (n : Nat) (s : List Char) : Prop :=
  ∃ d : Disjunction, Token.scan s = some d.tokens ∧ d.nesting = n

/-- The printed text of a canonical constraint has a derivation that stands for it. -/
theorem exists_derivation_of_canonical {c : Constraint} (h : Canonical c) :
    ∃ d : Disjunction, Token.scan c.print = some d.tokens ∧ d.constraint = c ∧
      d.tokens = c.tokensIn .whole ∧ d.nesting = c.nestingIn .whole := by
  obtain ⟨d, htokens, rfl, hnesting⟩ := (printable_of_canonical h).whole
  refine ⟨d, ?_, rfl, htokens, hnesting⟩
  rw [print, ← htokens]
  exact d.scan_spelled (d.canonical_constraint_iff.mp h)

/-- The nesting of a canonical constraint is that of its printed text. -/
theorem hasNesting_print {c : Constraint} (h : Canonical c) :
    HasNesting (c.nestingIn .whole) c.print := by
  obtain ⟨d, hscan, -, -, hnesting⟩ := exists_derivation_of_canonical h
  exact ⟨d, hscan, hnesting⟩

/-- A canonical constraint is what its printed text is read as, unless it is nested too deeply. -/
theorem parse?_print {c : Constraint} (h : Canonical c)
    (hnesting : c.nestingIn .whole ≤ maxNesting) : parse? c.print = some c := by
  obtain ⟨d, hscan, hc, -, heq⟩ := exists_derivation_of_canonical h
  exact parse?_eq_some_iff.mpr ⟨d, hscan, heq ▸ hnesting, hc⟩

/-- What is read is canonical, and printing it makes it neither deeper nor longer in
parentheses. -/
theorem canonical_and_print_le_of_parse? {s : List Char} {c : Constraint} (h : parse? s = some c) :
    Canonical c ∧ c.nestingIn .whole ≤ maxNesting ∧ c.print.count '(' ≤ s.count '(' := by
  obtain ⟨d, hscan, hnesting, rfl⟩ := parse?_eq_some_iff.mp h
  obtain ⟨hvalid, hcount⟩ := Token.account_of_scan hscan
  have hcanonical : d.constraint.Canonical := d.canonical_constraint_iff.mpr hvalid
  obtain ⟨d', hscan', -, htokens, -⟩ := exists_derivation_of_canonical hcanonical
  obtain ⟨hle, hparens⟩ := d.whole_le
  have hcount' := (Token.account_of_scan hscan').2
  refine ⟨hcanonical, Nat.le_trans hle hnesting, ?_⟩
  rw [hcount', htokens, hcount]
  exact hparens

/-- **Reading gives the canonical constraints that are not nested too deeply, and printing is undone
by reading.**  The printed text of a canonical constraint is nested as deeply as the constraint.
Whatever is read from a text is canonical, its printed text is nested at most `maxNesting` times and
has no more parentheses than the text it was read from.  A canonical constraint that is nested no
deeper is what its printed text is read as.  So whatever is read is read again from its printed
text. -/
theorem parse?_image :
    (∀ c, Canonical c → HasNesting (c.nestingIn .whole) c.print) ∧
    (∀ s c, parse? s = some c →
      Canonical c ∧ c.nestingIn .whole ≤ maxNesting ∧ c.print.count '(' ≤ s.count '(') ∧
    (∀ c, Canonical c → c.nestingIn .whole ≤ maxNesting → parse? c.print = some c) ∧
    ∀ s c, parse? s = some c → parse? c.print = some c := by
  refine ⟨fun c h => hasNesting_print h, fun s c h => canonical_and_print_le_of_parse? h,
    fun c h hnesting => parse?_print h hnesting, fun s c h => ?_⟩
  obtain ⟨hcanonical, hnesting, -⟩ := canonical_and_print_le_of_parse? h
  exact parse?_print hcanonical hnesting

/-- A conjunction with a disjunction under a negation. -/
def negatedChoice : Constraint := .all [.tag "linux", .not (.any [.tag "cgo", .tag "386"])]

theorem canonical_negatedChoice : Canonical negatedChoice := by
  have htag : ∀ name ∈ ["linux", "cgo", "386"], Canonical (.tag name) := by
    simp only [canonical_tag_iff]
    decide
  have hchoice : Canonical (.any [.tag "cgo", .tag "386"]) := by
    refine .any (by decide) ?_
    rw [List.forall_mem_cons, List.forall_mem_singleton]
    exact ⟨htag "cgo" (by decide), htag "386" (by decide)⟩
  refine .all (by decide) ?_
  rw [List.forall_mem_cons, List.forall_mem_singleton]
  exact ⟨htag "linux" (by decide), hchoice.not⟩

/-- A text with more parentheses than are needed is read as a constraint that is printed without
them, and that text is read as the same constraint. -/
theorem parse?_image_negatedChoice :
    parse? "((linux) && !(cgo || (386)))".toList = some negatedChoice ∧
    Canonical negatedChoice ∧ negatedChoice.nestingIn .whole ≤ maxNesting ∧
    negatedChoice.print = "linux && !(cgo || 386)".toList ∧
    parse? "linux && !(cgo || 386)".toList = some negatedChoice := by
  have hread : parse? "((linux) && !(cgo || (386)))".toList = some negatedChoice :=
    parse?_eq_some_of_tokens
      (.one (.one (.group (.one (.more (.group (.one (.one (.tag "linux")))) (.one (.not (.group
        (.more (.one (.tag "cgo")) (.one (.one (.group (.one (.one (.tag "386")))))))))))))))
      (by decide +kernel) (by decide)
  have hprint : negatedChoice.print = "linux && !(cgo || 386)".toList := by decide +kernel
  have hnesting : negatedChoice.nestingIn .whole ≤ maxNesting := by decide
  obtain ⟨-, himage, hundone, -⟩ := parse?_image
  refine ⟨hread, (himage _ _ hread).1, hnesting, hprint, ?_⟩
  rw [← hprint]
  exact hundone negatedChoice canonical_negatedChoice hnesting

end GoResolver.Constraint
