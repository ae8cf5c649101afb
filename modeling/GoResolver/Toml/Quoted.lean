import GoResolver.Text.Number

/-!
# Quoted strings

TOML has four ways to quote a string: in double quotes with escapes, in single quotes without, and
each of them between triple quotes, where it may go over several lines.

Everything here reads a string from the character after its opening quotes and returns what was read
and the text after the closing quotes.  Where the quotes are triple

* a line break is a line feed, however it was written, and one right after the opening quotes does
  not count;
* one or two quotes may stand anywhere, also right before the closing quotes;
* a backslash at the end of a line takes away all blanks and line breaks that follow it.

`basicFrom` reads character by character and is always in one of a few modes; a mode is all that
needs to be remembered between two characters.
-/

namespace GoResolver.Toml

/-- The characters that may stand in a string or a comment as they are. -/
def isPlain (c : Char) : Bool := c == '\t' || (0x20 ≤ c.toNat && c.toNat != 0x7f)

/-- The blanks within a line. -/
def isBlank (c : Char) : Bool := c == ' ' || c == '\t'

/-- The text without a line break in front, if it has one. -/
def dropBreak : List Char → List Char
  | '\n' :: s => s
  | '\r' :: '\n' :: s => s
  | s => s

/-- Whether a text goes on with a line feed. -/
def startsWithFeed : List Char → Bool
  | '\n' :: _ => true
  | _ => false

/-- A character in front of what was read. -/
def prepend (c : Char) (r : Option (List Char × List Char)) : Option (List Char × List Char) :=
  r.map fun p => (c :: p.1, p.2)

/-- What a quote inside a string does, looking at the text after it: it may close the string, and
up to two quotes then belong to the string's end. -/
def closing? (quote : Char) (triple : Bool) (s : List Char) : Option (List Char × List Char) :=
  if triple then
    match s with
    | a :: b :: r =>
      if a = quote ∧ b = quote then
        let more := (r.take 2).takeWhile (· = quote)
        some (more, r.drop more.length)
      else none
    | _ => none
  else some ([], s)

/-! ## 1. Single quotes -/

/-- Reads a string without escapes. -/
def literalFrom (triple : Bool) : List Char → Option (List Char × List Char)
  | [] => none
  | c :: s =>
    if c = '\'' then
      match closing? '\'' triple s with
      | some p => some p
      | none => prepend c (literalFrom triple s)
    else if triple ∧ c = '\n' then prepend c (literalFrom triple s)
    else if triple ∧ c = '\r' ∧ startsWithFeed s then literalFrom triple s
    else if isPlain c then prepend c (literalFrom triple s)
    else none

/-! ## 2. Double quotes -/

/-- The character that a letter after a backslash stands for. -/
def shortEscape? : Char → Option Char
  | 'b' => some '\x08'
  | 't' => some '\t'
  | 'n' => some '\n'
  | 'f' => some '\x0c'
  | 'r' => some '\r'
  | '"' => some '"'
  | '\\' => some '\\'
  | _ => none

/-- How many hexadecimal digits follow a letter after a backslash. -/
def codeLength? : Char → Option Nat
  | 'u' => some 4
  | 'U' => some 8
  | _ => none

/-- The character with a code point, if there is one. -/
def charOf? (n : Nat) : Option Char := if n.isValidChar then some (Char.ofNat n) else none

/-- Where in a string with escapes the reader is. -/
inductive Mode where
  /-- Between characters; when `folding`, blanks and line breaks do not count. -/
  | text (folding : Bool)
  /-- After a backslash. -/
  | escape
  /-- Within a code point, with the number of digits that are still to come after the next one. -/
  | code (left value : Nat)
  /-- After a backslash and blanks, before the line break that must follow. -/
  | lineEnd
  deriving Repr, DecidableEq

/-- Reads a string with escapes. -/
def basicFrom (triple : Bool) : Mode → List Char → Option (List Char × List Char)
  | _, [] => none
  | .text folding, c :: s =>
    if folding ∧ (isBlank c ∨ c = '\n') then basicFrom triple (.text true) s
    else if folding ∧ c = '\r' ∧ startsWithFeed s then basicFrom triple (.text true) s
    else if c = '"' then
      match closing? '"' triple s with
      | some p => some p
      | none => prepend c (basicFrom triple (.text false) s)
    else if c = '\\' then basicFrom triple .escape s
    else if triple ∧ c = '\n' then prepend c (basicFrom triple (.text false) s)
    else if triple ∧ c = '\r' ∧ startsWithFeed s then basicFrom triple (.text false) s
    else if isPlain c then prepend c (basicFrom triple (.text false) s)
    else none
  | .escape, c :: s =>
    match codeLength? c, shortEscape? c with
    | some n, _ => basicFrom triple (.code (n - 1) 0) s
    | none, some x => prepend x (basicFrom triple (.text false) s)
    | none, none =>
      if triple ∧ c = '\n' then basicFrom triple (.text true) s
      else if triple ∧ (isBlank c ∨ (c = '\r' ∧ startsWithFeed s)) then
        basicFrom triple .lineEnd s
      else none
  | .code left value, c :: s =>
    if Text.isDigitOf 16 c then
      let value := value * 16 + (Text.digit? c).getD 0
      match left with
      | 0 =>
        match charOf? value with
        | some x => prepend x (basicFrom triple (.text false) s)
        | none => none
      | left + 1 => basicFrom triple (.code left value) s
    else none
  | .lineEnd, c :: s =>
    if c = '\n' then basicFrom triple (.text true) s
    else if isBlank c ∨ (c = '\r' ∧ startsWithFeed s) then basicFrom triple .lineEnd s
    else none

/-! ## 3. Any quotes -/

/-- Reads a string that goes over one line. -/
def lineString? : List Char → Option (List Char × List Char)
  | '"' :: s => basicFrom false (.text false) s
  | '\'' :: s => literalFrom false s
  | _ => none

/-- Reads a string in any quotes. -/
def string? : List Char → Option (List Char × List Char)
  | '"' :: '"' :: '"' :: s => basicFrom true (.text false) (dropBreak s)
  | '\'' :: '\'' :: '\'' :: s => literalFrom true (dropBreak s)
  | s => lineString? s

end GoResolver.Toml
