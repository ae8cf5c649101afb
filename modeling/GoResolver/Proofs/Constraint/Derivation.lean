import GoResolver.Constraint.Parser

/-!
# Derivations of constraint expressions

`Constraint.Parser` reads token lists.  This file says what there is to read: the trees that the
grammar

    expr  = conj ("||" conj)*
    conj  = unary ("&&" unary)*
    unary = "!" unary | "(" expr ")" | tag

derives, without a word about how a reader finds them.

* `tokens`: the token list that a derivation spells;
* `nesting`: how many `!` and `(` stand around its deepest position;
* `holds`: its truth value, read off the derivation with `&&` and `||` of the truth values;
* `constraint`, `terms`: the constraint that it stands for, tied to `holds` by `holds_constraint`.

## The grammar is unambiguous

`Disjunction.eq_of_tokens_eq`: two derivations that spell the same tokens are equal.  An operand
ends where it ends, whatever follows it (`Operand.eq_of_append`), but a chain could always go on, so
for chains the statement needs that no separator follows.
-/

namespace GoResolver.Constraint

mutual

/-- A derivation of an operand. -/
inductive Operand where
  | tag (name : String)
  | not (operand : Operand)
  | group (inner : Disjunction)

/-- A derivation of operands between `&&`. -/
inductive Conjunction where
  | one (operand : Operand)
  | more (operand : Operand) (rest : Conjunction)

/-- A derivation of conjunctions between `||`. -/
inductive Disjunction where
  | one (conjunction : Conjunction)
  | more (conjunction : Conjunction) (rest : Disjunction)

end

/-! ## 1. What a derivation spells -/

mutual

def Operand.tokens : Operand → List Token
  | .tag name => [.tag name]
  | .not o => .not :: o.tokens
  | .group d => .lparen :: (d.tokens ++ [.rparen])

def Conjunction.tokens : Conjunction → List Token
  | .one o => o.tokens
  | .more o c => o.tokens ++ .and :: c.tokens

def Disjunction.tokens : Disjunction → List Token
  | .one c => c.tokens
  | .more c d => c.tokens ++ .or :: d.tokens

end

mutual

/-- How many `!` and `(` stand around the deepest position of a derivation. -/
def Operand.nesting : Operand → Nat
  | .tag _ => 0
  | .not o => o.nesting + 1
  | .group d => d.nesting + 1

def Conjunction.nesting : Conjunction → Nat
  | .one o => o.nesting
  | .more o c => max o.nesting c.nesting

def Disjunction.nesting : Disjunction → Nat
  | .one c => c.nesting
  | .more c d => max c.nesting d.nesting

end

/-! ## 2. What a derivation means -/

mutual

/-- The truth value of a derivation where exactly the tags with `satisfied` hold. -/
def Operand.holds (satisfied : String → Bool) : Operand → Bool
  | .tag name => satisfied name
  | .not o => !o.holds satisfied
  | .group d => d.holds satisfied

def Conjunction.holds (satisfied : String → Bool) : Conjunction → Bool
  | .one o => o.holds satisfied
  | .more o c => o.holds satisfied && c.holds satisfied

def Disjunction.holds (satisfied : String → Bool) : Disjunction → Bool
  | .one c => c.holds satisfied
  | .more c d => c.holds satisfied || d.holds satisfied

end

mutual

/-- The constraint that an operand stands for. -/
def Operand.constraint : Operand → Constraint
  | .tag name => .tag name
  | .not o => .not o.constraint
  | .group d => disj d.terms

/-- The constraints of the operands between `&&`. -/
def Conjunction.terms : Conjunction → List Constraint
  | .one o => [o.constraint]
  | .more o c => o.constraint :: c.terms

/-- The constraints of the conjunctions between `||`. -/
def Disjunction.terms : Disjunction → List Constraint
  | .one c => [conj c.terms]
  | .more c d => conj c.terms :: d.terms

end

/-- The constraint that a derivation stands for. -/
def Disjunction.constraint (d : Disjunction) : Constraint := disj d.terms

mutual

theorem Operand.holds_constraint (satisfied : String → Bool) :
    ∀ o : Operand, o.constraint.holds satisfied = o.holds satisfied
  | .tag name => by rw [Operand.constraint, Operand.holds, holds_tag]
  | .not o => by
    rw [Operand.constraint, Operand.holds, holds_not, o.holds_constraint satisfied]
  | .group d => by
    rw [Operand.constraint, Operand.holds, holds_disj, d.any_terms satisfied]

theorem Conjunction.all_terms (satisfied : String → Bool) :
    ∀ c : Conjunction, c.terms.all (Constraint.holds satisfied) = c.holds satisfied
  | .one o => by
    simp only [Conjunction.terms, Conjunction.holds, List.all_cons, List.all_nil, Bool.and_true]
    exact o.holds_constraint satisfied
  | .more o c => by
    rw [Conjunction.terms, Conjunction.holds, List.all_cons, o.holds_constraint satisfied,
      c.all_terms satisfied]

theorem Disjunction.any_terms (satisfied : String → Bool) :
    ∀ d : Disjunction, d.terms.any (Constraint.holds satisfied) = d.holds satisfied
  | .one c => by
    simp only [Disjunction.terms, Disjunction.holds, List.any_cons, List.any_nil, Bool.or_false]
    rw [holds_conj, c.all_terms satisfied]
  | .more c d => by
    rw [Disjunction.terms, Disjunction.holds, List.any_cons, holds_conj, c.all_terms satisfied,
      d.any_terms satisfied]

end

/-- **The constraint of a derivation has the derivation's truth value.** -/
theorem Disjunction.holds_constraint (satisfied : String → Bool) (d : Disjunction) :
    d.constraint.holds satisfied = d.holds satisfied := by
  rw [Disjunction.constraint, holds_disj, d.any_terms satisfied]

/-! ## 3. Unique derivations -/

mutual

/-- An operand ends where it ends: nothing that follows can become a part of it. -/
theorem Operand.eq_of_append : ∀ {o o' : Operand} {r r' : List Token},
    o.tokens ++ r = o'.tokens ++ r' → o = o' ∧ r = r'
  | .tag _, .tag _, _, _, h => by
    simp only [Operand.tokens, List.cons_append, List.nil_append, List.cons.injEq,
      Token.tag.injEq] at h
    exact ⟨by rw [h.1], h.2⟩
  | .not o, .not o', r, r', h => by
    simp only [Operand.tokens, List.cons_append, List.cons.injEq, true_and] at h
    obtain ⟨ho, hr⟩ := Operand.eq_of_append h
    exact ⟨by rw [ho], hr⟩
  | .group d, .group d', r, r', h => by
    simp only [Operand.tokens, List.cons_append, List.cons.injEq, true_and,
      List.append_assoc, List.nil_append] at h
    -- the parenthesis that closes the group is no separator, so the chain inside ends before it
    obtain ⟨hd, hr⟩ := Disjunction.eq_of_append h (by simp) (by simp) (by simp) (by simp)
    exact ⟨by rw [hd], (List.cons.inj hr).2⟩
  | .tag _, .not _, _, _, h => by simp [Operand.tokens] at h
  | .tag _, .group _, _, _, h => by simp [Operand.tokens] at h
  | .not _, .tag _, _, _, h => by simp [Operand.tokens] at h
  | .not _, .group _, _, _, h => by simp [Operand.tokens] at h
  | .group _, .tag _, _, _, h => by simp [Operand.tokens] at h
  | .group _, .not _, _, _, h => by simp [Operand.tokens] at h

/-- A chain of operands that no `&&` follows ends where it ends. -/
theorem Conjunction.eq_of_append : ∀ {c c' : Conjunction} {r r' : List Token},
    c.tokens ++ r = c'.tokens ++ r' → r.head? ≠ some .and → r'.head? ≠ some .and →
    c = c' ∧ r = r'
  | .one o, .one o', r, r', h, _, _ => by
    obtain ⟨ho, hr⟩ := Operand.eq_of_append h
    exact ⟨by rw [ho], hr⟩
  | .more o c, .more o' c', r, r', h, hr, hr' => by
    simp only [Conjunction.tokens, List.append_assoc, List.cons_append] at h
    obtain ⟨ho, hrest⟩ := Operand.eq_of_append h
    obtain ⟨hc, hend⟩ := Conjunction.eq_of_append (List.cons.inj hrest).2 hr hr'
    exact ⟨by rw [ho, hc], hend⟩
  | .one o, .more o' c', r, r', h, hr, _ => by
    simp only [Conjunction.tokens, List.append_assoc, List.cons_append] at h
    obtain ⟨-, hrest⟩ := Operand.eq_of_append h
    exact absurd (by rw [hrest, List.head?_cons]) hr
  | .more o c, .one o', r, r', h, _, hr' => by
    simp only [Conjunction.tokens, List.append_assoc, List.cons_append] at h
    obtain ⟨-, hrest⟩ := Operand.eq_of_append h
    exact absurd (by rw [← hrest, List.head?_cons]) hr'

/-- A chain of conjunctions that neither separator follows ends where it ends. -/
theorem Disjunction.eq_of_append : ∀ {d d' : Disjunction} {r r' : List Token},
    d.tokens ++ r = d'.tokens ++ r' → r.head? ≠ some .and → r'.head? ≠ some .and →
    r.head? ≠ some .or → r'.head? ≠ some .or → d = d' ∧ r = r'
  | .one c, .one c', r, r', h, ha, ha', _, _ => by
    obtain ⟨hc, hr⟩ := Conjunction.eq_of_append h ha ha'
    exact ⟨by rw [hc], hr⟩
  | .more c d, .more c' d', r, r', h, ha, ha', ho, ho' => by
    simp only [Disjunction.tokens, List.append_assoc, List.cons_append] at h
    obtain ⟨hc, hrest⟩ := Conjunction.eq_of_append h (by simp) (by simp)
    obtain ⟨hd, hend⟩ := Disjunction.eq_of_append (List.cons.inj hrest).2 ha ha' ho ho'
    exact ⟨by rw [hc, hd], hend⟩
  | .one c, .more c' d', r, r', h, ha, _, ho, _ => by
    simp only [Disjunction.tokens, List.append_assoc, List.cons_append] at h
    obtain ⟨-, hrest⟩ := Conjunction.eq_of_append h ha (by simp)
    exact absurd (by rw [hrest, List.head?_cons]) ho
  | .more c d, .one c', r, r', h, _, ha', _, ho' => by
    simp only [Disjunction.tokens, List.append_assoc, List.cons_append] at h
    obtain ⟨-, hrest⟩ := Conjunction.eq_of_append h (by simp) ha'
    exact absurd (by rw [← hrest, List.head?_cons]) ho'

end

/-- **The grammar is unambiguous.** -/
theorem Disjunction.eq_of_tokens_eq {d d' : Disjunction} (h : d.tokens = d'.tokens) : d = d' := by
  have happ : d.tokens ++ [] = d'.tokens ++ [] := by rw [h]
  exact (Disjunction.eq_of_append happ (by simp) (by simp) (by simp) (by simp)).1

end GoResolver.Constraint
