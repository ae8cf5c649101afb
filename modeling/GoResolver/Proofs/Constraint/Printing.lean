import GoResolver.Constraint.Parser
import GoResolver.Proofs.Text.Lines

/-!
# Printed constraints

A constraint is printed with as few parentheses as it can be read back with.  What stands around it
decides: in the place of an operand, after `!` or between `&&`, a conjunction and a disjunction need
parentheses; between `||` only a disjunction does; and alone, or between parentheses, nothing does.
`tokensIn` is this rule, for the three kinds of places in `Slot`, and `print` is the text of the
tokens.

`Canonical` says which constraints are worth printing.  Every constraint that is read is of this
form, because `conj` and `disj` drop a node around a single term (`canonical_conj_iff`,
`canonical_disj_iff`).

The printed text is read again token by token: a tag ends where no tag character follows, and no
other token can go on (`Token.scan_spelled_append`).  So token lists read back (`ReadsBack`) as long
as another token stands between two tags.
-/

namespace GoResolver.Constraint

/-! ## 1. Canonical constraints -/

/-- Every tag can be written, and no conjunction or disjunction has fewer than two terms. -/
inductive Canonical : Constraint → Prop where
  | tag {name : String} (text : isTagText name.toList = true) : Canonical (.tag name)
  | not {c : Constraint} (term : Canonical c) : Canonical (.not c)
  | all {cs : List Constraint} (two : 2 ≤ cs.length) (terms : ∀ c ∈ cs, Canonical c) :
      Canonical (.all cs)
  | any {cs : List Constraint} (two : 2 ≤ cs.length) (terms : ∀ c ∈ cs, Canonical c) :
      Canonical (.any cs)

theorem canonical_tag_iff {name : String} :
    Canonical (.tag name) ↔ isTagText name.toList = true := by
  constructor
  · rintro (h | _)
    exact h
  · exact .tag

theorem canonical_not_iff {c : Constraint} : Canonical (.not c) ↔ Canonical c := by
  constructor
  · rintro (_ | h)
    exact h
  · exact .not

theorem canonical_conj_iff {cs : List Constraint} (hne : cs ≠ []) :
    Canonical (conj cs) ↔ ∀ c ∈ cs, Canonical c := by
  match cs with
  | [c] => rw [conj, List.forall_mem_singleton]
  | c :: c' :: cs =>
    constructor
    · rintro (_ | _ | ⟨-, h⟩)
      exact h
    · exact .all (Nat.le_add_left 2 cs.length)

theorem canonical_disj_iff {cs : List Constraint} (hne : cs ≠ []) :
    Canonical (disj cs) ↔ ∀ c ∈ cs, Canonical c := by
  match cs with
  | [c] => rw [disj, List.forall_mem_singleton]
  | c :: c' :: cs =>
    constructor
    · rintro (_ | _ | _ | ⟨-, h⟩)
      exact h
    · exact .any (Nat.le_add_left 2 cs.length)

/-! ## 2. Tokens with the fewest parentheses -/

/-- Where a constraint is written. -/
inductive Slot where
  /-- Alone, or between parentheses. -/
  | whole
  /-- Between `||`. -/
  | disjunct
  /-- After `!`, or between `&&`. -/
  | operand
  deriving DecidableEq

/-- Tokens between parentheses, where parentheses are needed. -/
def enclosed (needed : Bool) (ts : List Token) : List Token :=
  if needed then .lparen :: (ts ++ [.rparen]) else ts

mutual

/-- The tokens of a constraint in a slot. -/
def tokensIn (slot : Slot) : Constraint → List Token
  | .tag name => [.tag name]
  | .not c => .not :: tokensIn .operand c
  | .all cs => enclosed (slot = .operand) (tokensBetween .and .operand cs)
  | .any cs => enclosed (slot ≠ .whole) (tokensBetween .or .disjunct cs)

/-- The tokens of constraints in slots of one kind, with a separator between them. -/
def tokensBetween (sep : Token) (slot : Slot) : List Constraint → List Token
  | [] => []
  | [c] => tokensIn slot c
  | c :: c' :: cs => tokensIn slot c ++ sep :: tokensBetween sep slot (c' :: cs)

end

/-! ## 3. The text -/

/-- The characters of a printed token: the two operators stand between spaces. -/
def Token.spelled : Token → List Char
  | .and => [' ', '&', '&', ' ']
  | .or => [' ', '|', '|', ' ']
  | t => t.text

/-- The text of a token list. -/
def spelled (ts : List Token) : List Char := ts.flatMap Token.spelled

/-- The text of a constraint, with the fewest parentheses. -/
def print (c : Constraint) : List Char := spelled (c.tokensIn .whole)

example : print (.any [.all [.tag "a", .any [.tag "b", .tag "c"]], .not (.not (.tag "d"))]) =
    "a && (b || c) || !!d".toList := by decide

theorem spelled_append (ts ts' : List Token) : spelled (ts ++ ts') = spelled ts ++ spelled ts' :=
  List.flatMap_append

theorem spelled_cons (t : Token) (ts : List Token) : spelled (t :: ts) = t.spelled ++ spelled ts :=
  List.flatMap_cons

/-! ## 4. Reading tokens again -/

namespace Token

/-- A token that can be written: the text of a tag is that of a tag. -/
def Valid : Token → Prop
  | .tag name => isTagText name.toList = true
  | _ => True

instance : ∀ t : Token, Decidable t.Valid
  | .tag name => inferInstanceAs (Decidable (isTagText name.toList = true))
  | .not | .and | .or | .lparen | .rparen => isTrue trivial

/-- No tag character stands at the start of the text. -/
def Ends (s : List Char) : Prop := ∀ c ∈ s.head?, isTagChar c = false

theorem ends_spelled_append {t : Token} (ht : ∀ name, t ≠ .tag name) (r : List Char) :
    Ends (t.spelled ++ r) := by
  intro c hc
  cases t with
  | tag name => exact absurd rfl (ht name)
  | _ =>
    rw [← Option.some_inj.mp hc]
    decide

theorem scan_cons_of_isGap {c : Char} (h : isGap c = true) (r : List Char) :
    scan (c :: r) = scan r := by
  rw [scan.eq_def]
  exact if_pos h

/-- A tag is read up to its end. -/
theorem scan_tag_append {name : String} (hname : isTagText name.toList = true) {r : List Char}
    (hr : Ends r) : scan (name.toList ++ r) = (Token.tag name :: ·) <$> scan r := by
  have hofList : String.ofList name.toList = name := String.ofList_toList
  rw [isTagText, Bool.and_eq_true, List.all_eq_true] at hname
  obtain ⟨hne, hchars⟩ := hname
  cases h : name.toList with
  | nil =>
    rw [h] at hne
    cases hne
  | cons c s =>
    rw [h] at hchars hofList
    have hc : isTagChar c = true := hchars c List.mem_cons_self
    obtain ⟨htake, hdrop⟩ := Text.takeWhile_append_of_stops
      (fun c' hc' => hchars c' (List.mem_cons_of_mem c hc')) hr
    -- a tag character is none of those that stand for another token
    have hother : ∀ c' : Char, isTagChar c' = false → c ≠ c' := by
      rintro c' hc' rfl
      rw [hc] at hc'
      cases hc'
    have hgap : ¬ isGap c = true := by
      simp [isGap, hother ' ' (by decide), hother '\t' (by decide)]
    rw [List.cons_append, scan.eq_def]
    dsimp only
    rw [if_neg hgap, if_neg (hother '!' (by decide)),
      if_neg (hother '(' (by decide)), if_neg (hother ')' (by decide)),
      if_neg (hother '&' (by decide)), if_neg (hother '|' (by decide)), if_pos hc, htake, hdrop,
      hofList]

/-- **A token is read from its text**, if it is no tag or no tag character follows. -/
theorem scan_text_append {t : Token} (ht : t.Valid) {r : List Char}
    (hr : (∃ name, t = .tag name) → Ends r) :
    scan (t.text ++ r) = (t :: ·) <$> scan r := by
  cases t with
  | tag name => exact scan_tag_append ht (hr ⟨name, rfl⟩)
  | not | lparen | rparen | and | or => exact scan.eq_def _

/-- The spaces around a printed token make no difference. -/
theorem scan_spelled_append {t : Token} (ht : t.Valid) {r : List Char}
    (hr : (∃ name, t = .tag name) → Ends r) :
    scan (t.spelled ++ r) = (t :: ·) <$> scan r := by
  cases t with
  | tag | not | lparen | rparen => exact scan_text_append ht hr
  | and =>
    calc scan (' ' :: (text .and ++ ' ' :: r))
        = scan (text .and ++ ' ' :: r) := scan_cons_of_isGap (by decide) _
      _ = (Token.and :: ·) <$> scan (' ' :: r) := scan_text_append (t := .and) trivial (by simp)
      _ = (Token.and :: ·) <$> scan r := by rw [scan_cons_of_isGap (by decide)]
  | or =>
    calc scan (' ' :: (text .or ++ ' ' :: r))
        = scan (text .or ++ ' ' :: r) := scan_cons_of_isGap (by decide) _
      _ = (Token.or :: ·) <$> scan (' ' :: r) := scan_text_append (t := .or) trivial (by simp)
      _ = (Token.or :: ·) <$> scan r := by rw [scan_cons_of_isGap (by decide)]

end Token

/-- The text of the tokens is read as these tokens, whatever follows, unless what follows goes on
with a tag. -/
def ReadsBack (ts : List Token) : Prop :=
  ∀ r : List Char, Token.Ends r → Token.scan (spelled ts ++ r) = (ts ++ ·) <$> Token.scan r

namespace ReadsBack

variable {ts ts' : List Token} {t : Token}

theorem nil : ReadsBack [] := by
  intro r _
  exact (id_map (Token.scan r)).symm

theorem tag {name : String} (h : isTagText name.toList = true) : ReadsBack [.tag name] := by
  intro r hr
  rw [spelled_cons, spelled, List.flatMap_nil, List.append_nil]
  exact Token.scan_tag_append h hr

/-- A token that is no tag keeps the tokens before it apart from those behind it. -/
theorem append_cons (h : ReadsBack ts) (ht : ∀ name, t ≠ .tag name) (h' : ReadsBack ts') :
    ReadsBack (ts ++ t :: ts') := by
  intro r hr
  have hvalid : t.Valid := by
    cases t with
    | tag name => exact absurd rfl (ht name)
    | _ => trivial
  have hends : Token.Ends (t.spelled ++ (spelled ts' ++ r)) := Token.ends_spelled_append ht _
  have hnext : Token.scan (t.spelled ++ (spelled ts' ++ r)) =
      (t :: ·) <$> Token.scan (spelled ts' ++ r) :=
    Token.scan_spelled_append hvalid fun ⟨name, hname⟩ => absurd hname (ht name)
  rw [spelled_append, spelled_cons, List.append_assoc, List.append_assoc, h _ hends, hnext,
    h' r hr]
  cases Token.scan r with
  | none => rfl
  | some rest =>
    show some (ts ++ t :: (ts' ++ rest)) = some ((ts ++ t :: ts') ++ rest)
    rw [List.append_assoc, List.cons_append]

theorem cons (ht : ∀ name, t ≠ .tag name) (h : ReadsBack ts) : ReadsBack (t :: ts) :=
  nil.append_cons ht h

end ReadsBack

end GoResolver.Constraint
