import GoResolver.Constraint.Basic
import GoResolver.Text.Blank

/-!
# The tokens of a constraint expression

An expression is written with the five punctuation tokens and with tags.  Only spaces and tabs may
stand between tokens; a tag is a maximal run of tag characters, and the two operators are written
with their character twice.  Any other character makes the expression malformed, so `scan` answers
`none` for it wherever it stands.
-/

namespace GoResolver.Constraint

/-- A token of the expression syntax. -/
inductive Token where
  | tag (name : String)
  | not
  | and
  | or
  | lparen
  | rparen
  deriving Repr, DecidableEq

namespace Token

/-- The characters of a token. -/
def text : Token → List Char
  | .tag name => name.toList
  | .not => ['!']
  | .and => ['&', '&']
  | .or => ['|', '|']
  | .lparen => ['(']
  | .rparen => [')']

/-- The characters that may separate tokens. -/
def isGap (c : Char) : Bool := c == ' ' || c == '\t'

/-- The tokens of an expression; `none` when it holds anything else. -/
def scan : List Char → Option (List Token)
  | [] => some []
  | c :: s =>
    if isGap c then scan s
    else if c = '!' then (Token.not :: ·) <$> scan s
    else if c = '(' then (Token.lparen :: ·) <$> scan s
    else if c = ')' then (Token.rparen :: ·) <$> scan s
    else if c = '&' then
      match s with
      | '&' :: s' => (Token.and :: ·) <$> scan s'
      | _ => none
    else if c = '|' then
      match s with
      | '|' :: s' => (Token.or :: ·) <$> scan s'
      | _ => none
    else if isTagChar c then
      (Token.tag (String.ofList (c :: s.takeWhile isTagChar)) :: ·) <$>
        scan (s.dropWhile isTagChar)
    else none
termination_by s => s.length
decreasing_by
  all_goals simp only [List.length_cons]
  all_goals first | omega | skip
  have := Text.length_dropWhile_le isTagChar s
  omega

end Token

end GoResolver.Constraint
