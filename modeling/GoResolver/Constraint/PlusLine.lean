import GoResolver.Constraint.Basic
import GoResolver.Text.Blank
import GoResolver.Text.Search

/-!
# Constraint lines of the `+build` form

The body of such a line is a list of options between blanks.  An option is a list of terms between
commas, and a term is a tag with at most one `!` in front.  The line holds when all terms of some
option hold.
-/

namespace GoResolver.Constraint

/-- A tag, or a negated tag. -/
def term? : List Char → Option Constraint
  | '!' :: s => if isTagText s then some (.not (.tag (String.ofList s))) else none
  | s => if isTagText s then some (.tag (String.ofList s)) else none

/-- An option: terms between commas, all of which must hold. -/
def option? (s : List Char) : Option Constraint :=
  conj <$> (Text.pieces ',' s).mapM term?

/-- The body of one line: options between blanks, one of which must hold.  A body without options
denotes nothing. -/
def ofPlusLine? (s : List Char) : Option Constraint :=
  match (Text.words s).mapM option? with
  | none | some [] => none
  | some options => some (disj options)

end GoResolver.Constraint
