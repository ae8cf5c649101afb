import GoResolver.Json.Basic
import GoResolver.Text.Number

/-!
# Reading JSON text

The grammar is that of the standard, without extensions: four blank characters, literals in lower
case, numbers without superfluous zeros, strings without control characters, no comma before a
closing bracket, and nothing but blanks around the one value.

The three functions for values, items and members recurse on fuel.  Each call takes a character
before it hands its text on, or hands it to `value` at once; so twice the length of the text, and a
little, is fuel enough, and that is what `parse?` starts with.
-/

namespace GoResolver.JsonValue

/-- The characters that may stand between tokens. -/
def isSpace (c : Char) : Bool := c == ' ' || c == '\n' || c == '\t' || c == '\r'

/-- The text from its first character that is not blank. -/
def skipSpace (s : List Char) : List Char := s.dropWhile isSpace

/-! ## 1. Strings -/

/-- The number that four hexadecimal digits denote. -/
def hex4? (a b c d : Char) : Option Nat :=
  if [a, b, c, d].all (Text.isDigitOf 16) then some (Text.value 16 [a, b, c, d]) else none

/-- The character that a letter after a backslash stands for. -/
def simpleEscape? : Char → Option Char
  | '"' => some '"'
  | '\\' => some '\\'
  | '/' => some '/'
  | 'b' => some '\x08'
  | 'f' => some '\x0c'
  | 'n' => some '\n'
  | 'r' => some '\r'
  | 't' => some '\t'
  | _ => none

/-- Whether a code unit is the first half of a surrogate pair. -/
def isHighHalf (n : Nat) : Bool := 0xd800 ≤ n && n < 0xdc00

/-- Whether a code unit is the second half of a surrogate pair. -/
def isLowHalf (n : Nat) : Bool := 0xdc00 ≤ n && n < 0xe000

/-- The character that a surrogate pair stands for. -/
def pairChar (high low : Nat) : Char :=
  Char.ofNat (0x10000 + (high - 0xd800) * 0x400 + (low - 0xdc00))

/-- What stands for a character in a string: the character, or a code unit after `\u`. -/
inductive Spelling where
  | char (c : Char)
  | unit (n : Nat)
  deriving Repr, DecidableEq

/-- Reads a string after its opening quote, up to its closing quote. -/
def spellings? : List Char → Option (List Spelling × List Char)
  | [] => none
  | '"' :: r => some ([], r)
  | '\\' :: 'u' :: a :: b :: c :: d :: r => do
    let n ← hex4? a b c d
    let (rest, r) ← spellings? r
    some (.unit n :: rest, r)
  | '\\' :: e :: r => do
    let c ← simpleEscape? e
    let (rest, r) ← spellings? r
    some (.char c :: rest, r)
  | c :: r =>
    if c.toNat < 0x20 then none
    else do
      let (rest, r) ← spellings? r
      some (.char c :: rest, r)

/-- The text that is spelled; half of a surrogate pair spells none. -/
def spelled? : List Spelling → Option (List Char)
  | [] => some []
  | .char c :: rest => (c :: ·) <$> spelled? rest
  | .unit n :: rest =>
    if isHighHalf n then
      match rest with
      | .unit m :: rest' => if isLowHalf m then (pairChar n m :: ·) <$> spelled? rest' else none
      | _ => none
    else if isLowHalf n then none
    else (Char.ofNat n :: ·) <$> spelled? rest

/-- Reads a string after its opening quote. -/
def string? (s : List Char) : Option (Option String × List Char) :=
  (spellings? s).map fun p => ((spelled? p.1).map String.ofList, p.2)

/-! ## 2. Numbers -/

/-- The digits at the start of a text and what follows them; there must be one. -/
def digitRun? (s : List Char) : Option (List Char × List Char) :=
  match s.takeWhile Text.isDigit with
  | [] => none
  | ds => some (ds, s.dropWhile Text.isDigit)

/-- The whole part of a number, which starts with zero only when it is zero. -/
def wholePart? : List Char → Option (List Char × List Char)
  | '0' :: r => some (['0'], r)
  | s => digitRun? s

/-- The fraction of a number; it may be missing. -/
def fractionPart? : List Char → Option (List Char × List Char)
  | '.' :: r => (digitRun? r).map fun p => ('.' :: p.1, p.2)
  | s => some ([], s)

/-- The sign of an exponent; it may be missing. -/
def signPart : List Char → List Char × List Char
  | '+' :: r => (['+'], r)
  | '-' :: r => (['-'], r)
  | s => ([], s)

/-- The exponent of a number; it may be missing. -/
def exponentPart? : List Char → Option (List Char × List Char)
  | c :: r =>
    if c = 'e' ∨ c = 'E' then
      (digitRun? (signPart r).2).map fun p => (c :: (signPart r).1 ++ p.1, p.2)
    else some ([], c :: r)
  | [] => some ([], [])

/-- A number without its sign. -/
def magnitude? (s : List Char) : Option (List Char × List Char) := do
  let (whole, r) ← wholePart? s
  let (fraction, r) ← fractionPart? r
  let (exponent, r) ← exponentPart? r
  some (whole ++ fraction ++ exponent, r)

/-- Reads a number. -/
def number? : List Char → Option (JsonValue × List Char)
  | '-' :: s => (magnitude? s).map fun p => (.number (String.ofList ('-' :: p.1)), p.2)
  | s => (magnitude? s).map fun p => (.number (String.ofList p.1), p.2)

/-! ## 3. Values -/

/-- Reads a colon between blanks. -/
def colon? (s : List Char) : Option (List Char) :=
  match skipSpace s with
  | ':' :: r => some (skipSpace r)
  | _ => none

mutual

/-- Reads a value that starts with the first character. -/
def value? : (fuel : Nat) → List Char → Option (JsonValue × List Char)
  | 0, _ => none
  | fuel + 1, s =>
    match s with
    | 'n' :: 'u' :: 'l' :: 'l' :: r => some (.null, r)
    | 't' :: 'r' :: 'u' :: 'e' :: r => some (.bool true, r)
    | 'f' :: 'a' :: 'l' :: 's' :: 'e' :: r => some (.bool false, r)
    | '"' :: r => (string? r).map fun p => (.string p.1, p.2)
    | '[' :: r =>
      match skipSpace r with
      | ']' :: r' => some (.array [], r')
      | r' => (items? fuel r').map fun p => (.array p.1, p.2)
    | '{' :: r =>
      match skipSpace r with
      | '}' :: r' => some (.object [], r')
      | r' => (members? fuel r').map fun p => (.object p.1, p.2)
    | s => number? s

/-- Reads the items of an array up to its closing bracket. -/
def items? : (fuel : Nat) → List Char → Option (List JsonValue × List Char)
  | 0, _ => none
  | fuel + 1, s => do
    let (v, r) ← value? fuel s
    match skipSpace r with
    | ']' :: r' => some ([v], r')
    | ',' :: r' => do
      let (vs, rest) ← items? fuel (skipSpace r')
      some (v :: vs, rest)
    | _ => none

/-- Reads the members of an object up to its closing brace. -/
def members? : (fuel : Nat) → List Char → Option (List (Option String × JsonValue) × List Char)
  | 0, _ => none
  | fuel + 1, s =>
    match s with
    | '"' :: s' => do
      let (key, r) ← string? s'
      let r ← colon? r
      let (v, r) ← value? fuel r
      match skipSpace r with
      | '}' :: r' => some ([(key, v)], r')
      | ',' :: r' => do
        let (ms, rest) ← members? fuel (skipSpace r')
        some ((key, v) :: ms, rest)
      | _ => none
    | _ => none

end

/-- The value that a whole text denotes. -/
def parse? (s : String) : Option JsonValue :=
  let cs := skipSpace s.toList
  match value? (2 * cs.length + 2) cs with
  | some (v, r) => if (skipSpace r).isEmpty then some v else none
  | none => none

end GoResolver.JsonValue
