/-!
# Completion candidates
-/

namespace GoResolver

/-- What a completion stands for. -/
inductive CandidateKind where
  | const
  | func
  | package
  | type
  | var
  | field
  | method
  | label
  | keyword
  | builtin
  deriving Repr, DecidableEq, Inhabited

namespace CandidateKind

/-- All kinds. -/
def every : List CandidateKind :=
  [.const, .func, .package, .type, .var, .field, .method, .label, .keyword, .builtin]

/-- The word for a kind. -/
def word : CandidateKind → String
  | .const => "const"
  | .func => "func"
  | .package => "package"
  | .type => "type"
  | .var => "var"
  | .field => "field"
  | .method => "method"
  | .label => "label"
  | .keyword => "keyword"
  | .builtin => "builtin"

/-- The kind that a word stands for. -/
def ofWord? (word : String) : Option CandidateKind := every.find? fun k => k.word == word

theorem ofWord?_word (k : CandidateKind) : ofWord? k.word = some k := by
  cases k <;> rfl

end CandidateKind

/-- A proposed completion.  A candidate without a type has an empty signature. -/
structure Candidate where
  name : String
  kind : CandidateKind
  signature : String := ""
  deriving Repr, DecidableEq, Inhabited

/-- The line that shows a candidate. -/
def Candidate.line (c : Candidate) : String :=
  if c.signature = "" then c.kind.word ++ " " ++ c.name
  else c.kind.word ++ " " ++ c.name ++ " " ++ c.signature

end GoResolver
