import GoResolver.Text.Alphanumeric

/-!
# Build constraints

A build constraint is a Boolean expression over tags.  Conjunction and disjunction take a list of
terms, so `a && b && c` is one node with three terms.  A single term needs no node of its own:
`conj` and `disj` return it as it is, and so no reader of this library ever builds a node with fewer
than two terms.

`holds` is the truth value under an assignment of truth values to tags.  It is defined together with
its two list forms; `holdAll_eq` and `holdAny_eq` say that these are `List.all` and `List.any`.
-/

namespace GoResolver

/-- A Boolean expression over build tags. -/
inductive Constraint where
  | tag (name : String)
  | not (term : Constraint)
  | all (terms : List Constraint)
  | any (terms : List Constraint)
  deriving Repr, Inhabited

namespace Constraint

/-! ## 1. Truth -/

mutual

/-- The truth value of a constraint where exactly the tags with `satisfied` hold. -/
def holds (satisfied : String → Bool) : Constraint → Bool
  | .tag name => satisfied name
  | .not term => !holds satisfied term
  | .all terms => holdAll satisfied terms
  | .any terms => holdAny satisfied terms

/-- Whether every constraint of a list is true. -/
def holdAll (satisfied : String → Bool) : List Constraint → Bool
  | [] => true
  | c :: cs => holds satisfied c && holdAll satisfied cs

/-- Whether some constraint of a list is true. -/
def holdAny (satisfied : String → Bool) : List Constraint → Bool
  | [] => false
  | c :: cs => holds satisfied c || holdAny satisfied cs

end

theorem holdAll_eq (satisfied : String → Bool) (cs : List Constraint) :
    holdAll satisfied cs = cs.all (holds satisfied) := by
  induction cs with
  | nil => simp [holdAll]
  | cons c cs ih => simp [holdAll, ih]

theorem holdAny_eq (satisfied : String → Bool) (cs : List Constraint) :
    holdAny satisfied cs = cs.any (holds satisfied) := by
  induction cs with
  | nil => simp [holdAny]
  | cons c cs ih => simp [holdAny, ih]

@[simp] theorem holds_tag (satisfied : String → Bool) (name : String) :
    holds satisfied (.tag name) = satisfied name := by
  simp [holds]

@[simp] theorem holds_not (satisfied : String → Bool) (c : Constraint) :
    holds satisfied (.not c) = !holds satisfied c := by
  simp [holds]

@[simp] theorem holds_all (satisfied : String → Bool) (cs : List Constraint) :
    holds satisfied (.all cs) = cs.all (holds satisfied) := by
  simp [holds, holdAll_eq]

@[simp] theorem holds_any (satisfied : String → Bool) (cs : List Constraint) :
    holds satisfied (.any cs) = cs.any (holds satisfied) := by
  simp [holds, holdAny_eq]

/-! ## 2. Nodes over a list of terms -/

/-- The conjunction of the terms; one term alone stands for itself. -/
def conj : List Constraint → Constraint
  | [c] => c
  | cs => .all cs

/-- The disjunction of the terms; one term alone stands for itself. -/
def disj : List Constraint → Constraint
  | [c] => c
  | cs => .any cs

theorem holds_conj (satisfied : String → Bool) (cs : List Constraint) :
    holds satisfied (conj cs) = cs.all (holds satisfied) := by
  unfold conj
  split <;> simp

theorem holds_disj (satisfied : String → Bool) (cs : List Constraint) :
    holds satisfied (disj cs) = cs.any (holds satisfied) := by
  unfold disj
  split <;> simp

/-! ## 3. Tags -/

/-- Tags are made of letters, numbers, underscores and dots. -/
def isTagChar (c : Char) : Bool :=
  Text.isAlphanumeric c || c == '_' || c == '.'

/-- A tag in the syntax: at least one character, and tag characters only. -/
def isTagText (s : List Char) : Bool :=
  !s.isEmpty && s.all isTagChar

end Constraint

end GoResolver
