import GoResolver.Settings.Layer
import GoResolver.Text.Blank
import GoResolver.Text.Search
import GoResolver.Toml.Quoted

/-!
# Settings in environment variables

A variable whose name starts with `GS_` names a setting.  Upper and lower case are the same, two
underscores lead into a table, and a single one belongs to the name.  Blanks around the name do not
count, nor do blanks right after `GS_`.

The text of a variable is a value in a small language of its own:

    value  = "true" | "false" | table | list | quoted | one character in single quotes | bare
    table  = "{" (name "=" value ",")* "}"
    list   = "[" (value ",")* "]"

where the last comma may be missing.  A bare value goes up to the next comma, bracket or brace; it
is a number if it looks like one and its text otherwise.  Where the language does not take the whole
text, the value is the text itself, with the blanks around it.

A quoted string may have escapes.  What stands before the first of them is measured in characters
but cut in bytes: as many characters are kept as fit, in UTF-8, into that number of bytes.  Before
the first escape it is therefore safe to write ASCII only.
-/

namespace GoResolver.Variable

/-! ## 1. Names -/

/-- What the names of variables with settings start with. -/
def namespaceText : String := "GS_"

/-- A character in lower case.  The letters that names of settings are made of have one upper case
form in ASCII; only `k` has another one, the Kelvin sign. -/
def lower (c : Char) : Char := if c = '\u212a' then 'k' else c.toLower

/-- The text with a point for every two underscores. -/
def pointed : List Char → List Char
  | '_' :: '_' :: s => '.' :: pointed s
  | c :: s => c :: pointed s
  | [] => []

/-- The names that lead to the setting of a variable, if the variable has one. -/
def place? (variableName : String) : Option (List String) :=
  let name := Text.trim variableName.toList
  if (name.take namespaceText.length).map Char.toUpper = namespaceText.toList then
    let path := Text.trim (pointed ((name.drop namespaceText.length).map lower))
    let parts := Text.pieces '.' path
    if parts.contains [] then none else some (parts.map String.ofList)
  else none

/-! ## 2. Bare values -/

/-- The characters that end a bare value. -/
def isSeparator (c : Char) : Bool := [',', '\x7b', '\x7d', '[', ']'].contains c

/-- The text without a sign in front; whether it is a minus. -/
def unsign : List Char → Bool × List Char
  | '-' :: s => (true, s)
  | '+' :: s => (false, s)
  | s => (false, s)

/-- The number after the letter of an exponent; without the letter it is zero. -/
def exponent? : List Char → Option Int
  | [] => some 0
  | c :: s =>
    if c = 'e' ∨ c = 'E' then
      (Text.natural? (unsign s).2).map fun n => if (unsign s).1 then -(n : Int) else n
    else none

/-- The floating-point number that a text with a point denotes. -/
def float? (s : List Char) : Option Binary64 :=
  let (negative, s) := unsign s
  let whole := s.takeWhile Text.isDigit
  match s.dropWhile Text.isDigit with
  | '.' :: r =>
    let fraction := r.takeWhile Text.isDigit
    if whole.isEmpty ∧ fraction.isEmpty then none
    else (exponent? (r.dropWhile Text.isDigit)).map fun e =>
      Binary64.ofDecimal negative ⟨Text.value 10 (whole ++ fraction), e - fraction.length⟩
  | _ => none

/-- The whole number that a text denotes; one below zero is of the other type. -/
def whole? : List Char → Option Setting
  | '-' :: s => ((Text.natural? s).filter (· ≤ Text.int64Limit)).map fun n => .signed (-(n : Int))
  | s => ((Text.natural? (Text.dropPlus s)).filter (· < Text.word64Limit)).map .unsigned

/-- The value of a bare text. -/
def bare (s : List Char) : Setting :=
  ((float? s).map Setting.float <|> whole? s).getD (.string (String.ofList s))

/-! ## 3. Values -/

/-- The blanks between the parts of a value. -/
def isSpace (c : Char) : Bool := [' ', '\t', '\n', '\x0c', '\r'].contains c

/-- The text from its first character that is not blank. -/
def skipSpace (s : List Char) : List Char := s.dropWhile isSpace

/-- The characters of a name without quotes. -/
def isNameChar (c : Char) : Bool := c.isAlphanum || c == '_' || c == '-'

/-- The characters in front of a text that fit, in UTF-8, into a number of bytes. -/
def fitting : (bytes : Nat) → List Char → List Char
  | _, [] => []
  | bytes, c :: s => if c.utf8Size ≤ bytes then c :: fitting (bytes - c.utf8Size) s else []

@[simp] theorem fitting_nil (bytes : Nat) : fitting bytes [] = [] := by
  cases bytes <;> rfl

/-- Nothing that does not stand in front of the text is kept. -/
theorem fitting_isPrefix (bytes : Nat) (s : List Char) : fitting bytes s <+: s := by
  induction s generalizing bytes with
  | nil => simp
  | cons c s ih =>
    unfold fitting
    split
    · obtain ⟨rest, hrest⟩ := ih (bytes - c.utf8Size)
      exact ⟨rest, by simp [hrest]⟩
    · exact ⟨c :: s, rfl⟩

/-- ASCII text has as many bytes as characters, so it is kept as it is. -/
theorem fitting_length_of_ascii {s : List Char} (h : ∀ c ∈ s, c.utf8Size = 1) :
    fitting s.length s = s := by
  induction s with
  | nil => simp
  | cons c s ih =>
    have hc : c.utf8Size = 1 := h c List.mem_cons_self
    have hs : fitting s.length s = s := ih fun d hd => h d (List.mem_cons_of_mem c hd)
    simp [fitting, hc, hs]

/-- Whether a character stands for itself between quotes. -/
def isUnescaped (c : Char) : Bool := c != '\\' && c != '"'

/-- What is kept of a string: `written` is how it is written, after the opening quote, and `read` is
what it denotes.  The two agree up to the first escape. -/
def kept (written read : List Char) : List Char :=
  let plain := written.takeWhile isUnescaped
  if (written.drop plain.length).head? = some '\\' then
    fitting plain.length plain ++ read.drop plain.length
  else read

/-- Reads a string after its opening quote. -/
def quoted? (s : List Char) : Option (String × List Char) :=
  (Toml.basicFrom false (.text false) s).map fun p => (String.ofList (kept s p.1), p.2)

/-- Reads the name of an entry. -/
def name? (s : List Char) : Option (String × List Char) :=
  match s with
  | '"' :: r => quoted? r
  | s =>
    match s.takeWhile isNameChar with
    | [] => none
    | cs => some (String.ofList cs, s.dropWhile isNameChar)

/-- Reads a value off the front of a text, with the blanks around it. -/
abbrev Reader := List Char → Option (Setting × List Char)

/-- Reads the items of a list up to its closing bracket. -/
def items? (value : Reader) : (fuel : Nat) → List Char → Option (List Setting × List Char)
  | _, ']' :: r => some ([], r)
  | 0, _ => none
  | fuel + 1, s => do
    let (v, r) ← value s
    match r with
    | ',' :: r => do
      let (vs, rest) ← items? value fuel r
      some (v :: vs, rest)
    | ']' :: r => some ([v], r)
    | _ => none

/-- Reads an entry of a table. -/
def entry? (value : Reader) (s : List Char) : Option ((String × Setting) × List Char) := do
  let (name, r) ← name? (skipSpace s)
  match skipSpace r with
  | '=' :: r => do
    let (v, r) ← value r
    some ((name, v), r)
  | _ => none

/-- Reads the entries of a table up to its closing brace. -/
def entries? (value : Reader) :
    (fuel : Nat) → List Char → Option (List (String × Setting) × List Char)
  | _, '\x7d' :: r => some ([], r)
  | 0, _ => none
  | fuel + 1, s => do
    let (e, r) ← entry? value s
    match r with
    | ',' :: r => do
      let (es, rest) ← entries? value fuel r
      some (e :: es, rest)
    | '\x7d' :: r => some ([e], r)
    | _ => none

/-- The table with the given entries; of two entries of a name the later one counts. -/
def tableOf (entries : List (String × Setting)) : Setting :=
  .table (entries.foldl (fun t e => setEntry e.1 e.2 t) [])

/-- Reads a value without the blanks around it.  `inner` reads a value within brackets or braces. -/
def coreWith? (inner : Option Reader) : Reader
  | 't' :: 'r' :: 'u' :: 'e' :: s => some (.boolean true, s)
  | 'f' :: 'a' :: 'l' :: 's' :: 'e' :: s => some (.boolean false, s)
  | '\x7b' :: s => do
    let value ← inner
    let (es, r) ← entries? value s.length s
    some (tableOf es, r)
  | '[' :: s => do
    let value ← inner
    let (vs, r) ← items? value s.length s
    some (.list vs, r)
  | '"' :: s => (quoted? s).map fun p => (.string p.1, p.2)
  | '\'' :: s =>
    match s with
    | c :: '\'' :: r => some (.string (String.ofList [c]), r)
    | _ => none
  | s => some (bare (Text.trim (s.takeWhile (!isSeparator ·))), s.dropWhile (!isSeparator ·))

/-- Reads a value and the blanks around it. -/
def valueWith? (inner : Option Reader) : Reader := fun s =>
  (coreWith? inner (skipSpace s)).map fun p => (p.1, skipSpace p.2)

/-- Reads a value with at most the given depth of lists and tables. -/
def value? : (room : Nat) → Reader
  | 0 => valueWith? none
  | room + 1 => valueWith? (some (value? room))

/-- The value that the text of a variable denotes. -/
def valueOf (text : String) : Setting :=
  let s := text.toList
  match value? s.length s with
  | some (v, []) => v
  | _ => .string text

end GoResolver.Variable
