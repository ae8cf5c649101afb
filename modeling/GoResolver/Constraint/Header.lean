import GoResolver.Constraint.Parser
import GoResolver.Constraint.PlusLine

/-!
# The constraint in a source file's header

The header of a Go file is what stands before its first line of code: blank lines, line comments and
block comments.  Two kinds of line comment in it are directives: `//go:build` with an expression,
and `// +build` with the body of a constraint line.

The header is scanned once, line by line.  A block comment may close in the middle of a line, and
what follows it on that line counts.  The scan ends at the first `//go:build` line, whose expression
alone is the constraint; without one, the constraint is the conjunction of the `+build` lines.  A
directive that cannot be read ends the scan with a `Malformed` error as soon as it is met.
-/

namespace GoResolver.Constraint

/-- A directive that cannot be read. -/
inductive Malformed where
  /-- The expression of a `//go:build` line. -/
  | expression (text : String)
  /-- The body of a `+build` line. -/
  | plusLine (text : String)
  deriving Repr, DecidableEq

/-- The text that reports a malformed directive. -/
def Malformed.message : Malformed → String
  | .expression text => "malformed constraint: " ++ text
  | .plusLine text => "malformed +build line: " ++ text

/-! ## 1. Block comments -/

/-- The text after the first `*/`. -/
def afterClose? : List Char → Option (List Char)
  | [] => none
  | '*' :: '/' :: s => some s
  | _ :: s => afterClose? s

theorem length_of_afterClose? {s r : List Char} (h : afterClose? s = some r) :
    r.length < s.length := by
  fun_induction afterClose? s <;> grind

/-- What a line shows outside block comments. -/
inductive Visible where
  /-- A block comment is still open at the end of the line, and nothing else stands on it. -/
  | inside
  /-- The rest of the line after the block comments at its start. -/
  | text (rest : List Char)

/-- Takes the block comments off the start of a line. -/
def dropComments : List Char → Visible
  | '/' :: '*' :: s =>
    match _h : afterClose? s with
    | none => .inside
    | some r => dropComments (Text.trimStart r)
  | s => .text s
termination_by s => s.length
decreasing_by
  have h₁ := length_of_afterClose? _h
  have h₂ := Text.length_dropWhile_le Text.isBlank r
  simp only [Text.trimStart, List.length_cons]
  omega

/-- What a line shows when a block comment is open at its start or not. -/
def visible (inBlock : Bool) (line : List Char) : Visible :=
  if inBlock then
    match afterClose? line with
    | none => .inside
    | some r => dropComments (Text.trimStart r)
  else dropComments line

/-! ## 2. Kinds of lines -/

/-- The argument of a directive: the line is its word alone, or its word and a space or tab before
the argument, which is trimmed. -/
def directive? (word line : List Char) : Option (List Char) :=
  match Text.after? word line with
  | none => none
  | some [] => some []
  | some (c :: s) => if c = ' ' ∨ c = '\t' then some (Text.trim (c :: s)) else none

/-- What a line means to the header. -/
inductive Line where
  | blank
  | comment
  | goBuild (expression : List Char)
  | plusBuild (body : List Char)
  | code
  deriving Repr, DecidableEq

/-- The kind of a line without block comments at its start. -/
def Line.ofText (s : List Char) : Line :=
  if s.isEmpty then .blank
  else match directive? "//go:build".toList s with
    | some e => .goBuild e
    | none =>
      match Text.after? "//".toList s with
      | none => .code
      | some rest =>
        match directive? "+build".toList (Text.trimStart rest) with
        | some body => .plusBuild body
        | none => .comment

/-! ## 3. The scan -/

/-- The conjunction of the lines read, if there are any. -/
def ofLines : List Constraint → Option Constraint
  | [] => none
  | cs => some (conj cs)

/-- Scans the lines of a header, given the constraint lines already read. -/
def scanHeader (inBlock : Bool) (read : List Constraint) :
    List (List Char) → Except Malformed (Option Constraint)
  | [] => .ok (ofLines read)
  | line :: rest =>
    match visible inBlock (Text.trim line) with
    | .inside => scanHeader true read rest
    | .text s =>
      match Line.ofText s with
      | .blank | .comment => scanHeader false read rest
      | .code => .ok (ofLines read)
      | .goBuild e =>
        match parse? e with
        | some c => .ok (some c)
        | none => .error (.expression (String.ofList e))
      | .plusBuild body =>
        if body.isEmpty then scanHeader false read rest
        else match ofPlusLine? body with
          | some c => scanHeader false (read ++ [c]) rest
          | none => .error (.plusLine (String.ofList body))

/-- The constraint that a source text's header states; `none` when it states none. -/
def ofSource (source : String) : Except Malformed (Option Constraint) :=
  scanHeader false [] (Text.lines source.toList)

end GoResolver.Constraint
