import GoResolver.Constraint.Token

/-!
# Reading a constraint expression

The grammar has three levels,

    expr  = conj ("||" conj)*
    conj  = unary ("&&" unary)*
    unary = "!" unary | "(" expr ")" | tag

and nesting is bounded: every `!` and every `(` around a position counts one, and a position may
have at most `maxNesting` of them.

A `Reader` takes tokens off the front of a list and never succeeds without taking one.  That is all
`Reader.chain` needs to end: it reads items between separators for as long as separators follow.
`unary` recurses on the nesting that is still allowed, so its structure is the nesting bound itself.
-/

namespace GoResolver.Constraint

/-- The deepest nesting of `!` and parentheses that an expression may have. -/
def maxNesting : Nat := 1000

/-- Reads a value off the front of a token list, taking at least one token. -/
structure Reader (α : Type) where
  /-- The value read and the tokens after it. -/
  run : List Token → Option (α × List Token)
  /-- What is left is shorter than what was there. -/
  consumes : ∀ {ts x r}, run ts = some (x, r) → r.length < ts.length

namespace Reader

/-- The run of `chain`. -/
def chainRun {α : Type} (sep : Token) (item : Reader α) (ts : List Token) :
    Option (List α × List Token) :=
  match _h : item.run ts with
  | none => none
  | some (x, []) => some ([x], [])
  | some (x, t :: r) =>
    if t = sep then
      match chainRun sep item r with
      | none => none
      | some (xs, rest) => some (x :: xs, rest)
    else some ([x], t :: r)
termination_by ts.length
decreasing_by
  have := item.consumes _h
  simp only [List.length_cons] at this
  omega

theorem chainRun_consumes {α : Type} (sep : Token) (item : Reader α) {ts r : List Token}
    {xs : List α} (h : chainRun sep item ts = some (xs, r)) : r.length < ts.length := by
  fun_induction chainRun sep item ts generalizing xs r <;> grind [→ Reader.consumes]

/-- One item, then further items for as long as a separator follows. -/
def chain {α : Type} (sep : Token) (item : Reader α) : Reader (List α) where
  run := chainRun sep item
  consumes h := chainRun_consumes sep item h

/-- Applies a function to the value read. -/
def map {α β : Type} (f : α → β) (item : Reader α) : Reader β where
  run ts := (item.run ts).map fun p => (f p.1, p.2)
  consumes := by
    intro ts x r h
    simp only [Option.map_eq_some_iff, Prod.mk.injEq] at h
    obtain ⟨p, hp, -, rfl⟩ := h
    exact item.consumes hp

/-- Terms between `&&`. -/
def conjunction (unary : Reader Constraint) : Reader Constraint :=
  (chain .and unary).map conj

/-- Conjunctions between `||`. -/
def expression (unary : Reader Constraint) : Reader Constraint :=
  (chain .or (conjunction unary)).map disj

/-- The run of `operand`. -/
def operandRun (inner : Option (Reader Constraint)) :
    List Token → Option (Constraint × List Token)
  | .tag name :: r => some (.tag name, r)
  | .not :: r => do
    let unary ← inner
    let (c, rest) ← unary.run r
    some (.not c, rest)
  | .lparen :: r => do
    let unary ← inner
    match (expression unary).run r with
    | some (c, .rparen :: rest) => some (c, rest)
    | _ => none
  | _ => none

theorem operandRun_consumes (inner : Option (Reader Constraint))
    {ts r : List Token} {c : Constraint} (h : operandRun inner ts = some (c, r)) :
    r.length < ts.length := by
  cases inner with
  | none =>
    unfold operandRun at h
    split at h <;> simp_all
  | some unary =>
    unfold operandRun at h
    split at h
    · simp_all
    · next s =>
      simp only [Option.bind_eq_bind, Option.bind_some, Option.bind_eq_some_iff] at h
      obtain ⟨p, hp, hr⟩ := h
      have := unary.consumes hp
      simp_all
      omega
    · next s =>
      simp only [Option.bind_eq_bind, Option.bind_some] at h
      split at h
      · next e =>
        have := (expression unary).consumes e
        simp_all
        omega
      · simp at h
    · simp at h

/-- A tag, a negation or a parenthesized expression.  `inner` reads an operand one level deeper, and
is absent where no deeper level is allowed. -/
def operand (inner : Option (Reader Constraint)) : Reader Constraint where
  run := operandRun inner
  consumes h := operandRun_consumes inner h

/-- An operand under which at most `room` further levels are allowed. -/
def unary : (room : Nat) → Reader Constraint
  | 0 => operand none
  | room + 1 => operand (some (unary room))

end Reader

/-- The constraint that a whole token list denotes. -/
def ofTokens? (ts : List Token) : Option Constraint :=
  match (Reader.expression (Reader.unary maxNesting)).run ts with
  | some (c, []) => some c
  | _ => none

/-- The constraint that an expression denotes; `none` when it is malformed or nested too deeply. -/
def parse? (s : List Char) : Option Constraint :=
  (Token.scan s).bind ofTokens?

end GoResolver.Constraint
