import GoResolver.Text.Search
import GoResolver.Toml.Document
import GoResolver.Toml.Moment
import GoResolver.Toml.Number
import GoResolver.Toml.Quoted

/-!
# Reading TOML text

A document is read line by line: an entry, a header or nothing, then an optional comment and the end
of the line.  Only an array may go on over several lines, with comments between its items, and a
string in triple quotes.

Nesting is bounded.  A dotted key has at most `maxParts` names, and at most `maxNesting` arrays and
tables in braces may stand in each other; `keyFrom?` and `value?` recurse on what is left of the
bound. Lists of items and the lines themselves are read with the length of the text as fuel, since
each turn takes at least one character.
-/

namespace GoResolver.Toml

/-- The greatest number of names in a dotted key. -/
def maxParts : Nat := 79

/-- The greatest depth of arrays and tables in braces. -/
def maxNesting : Nat := 79

/-! ## 1. Blanks and comments -/

/-- The text from its first character that is no blank. -/
def skipBlanks (s : List Char) : List Char := s.dropWhile isBlank

/-- The text after the blanks, the line breaks and the comments in front of it. -/
def skipGap? (inComment : Bool) : List Char → Option (List Char)
  | [] => if inComment then none else some []
  | c :: s =>
    if c = '\n' ∨ (c = '\r' ∧ startsWithFeed s) then skipGap? false s
    else if inComment then if isPlain c then skipGap? true s else none
    else if isBlank c then skipGap? false s
    else if c = '#' then skipGap? true s
    else some (c :: s)

/-- The text after the end of a line. -/
def skipBreak? : List Char → Option (List Char)
  | [] => some []
  | '\n' :: s => some s
  | '\r' :: '\n' :: s => some s
  | _ => none

/-- The text after the rest of a line, which may be blanks and a comment. -/
def skipLine? (s : List Char) : Option (List Char) :=
  match skipBlanks s with
  | '#' :: r => skipBreak? (r.dropWhile isPlain)
  | r => skipBreak? r

/-! ## 2. Keys -/

/-- The characters of a name without quotes. -/
def isBare (c : Char) : Bool :=
  c.isAlphanum || c == '_' || c == '-'

/-- Reads a name. -/
def name? (s : List Char) : Option (String × List Char) :=
  match s.takeWhile isBare with
  | [] => (lineString? s).map fun p => (String.ofList p.1, p.2)
  | cs => some (String.ofList cs, s.dropWhile isBare)

/-- Reads a key of at most the given number of names. -/
def keyFrom? : (parts : Nat) → List Char → Option (Key × List Char)
  | 0, _ => none
  | parts + 1, s => do
    let (name, r) ← name? (skipBlanks s)
    match skipBlanks r with
    | '.' :: r => do
      let (k, r) ← keyFrom? parts r
      some (k.below name, r)
    | r => some ({ name }, r)

/-- Reads a key and the blanks around it. -/
def key? (s : List Char) : Option (Key × List Char) := keyFrom? maxParts s

/-! ## 3. Values -/

/-- Reads a value off the front of a text. -/
abbrev ValueReader := List Char → Option (Value × List Char)

/-- Reads the items of an array up to its closing bracket. -/
def items? (value : ValueReader) : (fuel : Nat) → List Char → Option (List Value × List Char)
  | 0, _ => none
  | fuel + 1, s => do
    match ← skipGap? false s with
    | ']' :: r => some ([], r)
    | s => do
      let (v, r) ← value s
      match ← skipGap? false r with
      | ',' :: r => do
        let (vs, rest) ← items? value fuel r
        some (v :: vs, rest)
      | ']' :: r => some ([v], r)
      | _ => none

/-- Reads a key, an equals sign, a value and the blanks around them. -/
def entry? (value : ValueReader) (s : List Char) : Option ((Key × Value) × List Char) := do
  let (k, r) ← key? s
  match r with
  | '=' :: r => do
    let (v, r) ← value (skipBlanks r)
    some ((k, v), skipBlanks r)
  | _ => none

/-- Reads the entries of a table in braces up to its closing brace; there must be one. -/
def members? (value : ValueReader) :
    (fuel : Nat) → List Char → Option (List (Key × Value) × List Char)
  | 0, _ => none
  | fuel + 1, s => do
    let (e, r) ← entry? value s
    match r with
    | ',' :: r => do
      let (es, rest) ← members? value fuel r
      some (e :: es, rest)
    | '}' :: r => some ([e], r)
    | _ => none

/-- Reads an array after its opening bracket. -/
def array? (value : ValueReader) (s : List Char) : Option (Value × List Char) :=
  (items? value (s.length + 1) s).map fun p => (.array p.1, p.2)

/-- Reads a table after its opening brace. -/
def braces? (value : ValueReader) (s : List Char) : Option (Value × List Char) :=
  match skipBlanks s with
  | '}' :: r => some (.table [], r)
  | s => do
    let (es, r) ← members? value (s.length + 1) s
    let v ← inlineTable? es
    some (v, r)

/-- Reads a value.  `inner` reads a value one level deeper, and is absent where no deeper level is
allowed. -/
def valueWith? (inner : Option ValueReader) : ValueReader
  | 't' :: 'r' :: 'u' :: 'e' :: s => some (.boolean true, s)
  | 'f' :: 'a' :: 'l' :: 's' :: 'e' :: s => some (.boolean false, s)
  | '[' :: s => inner.bind fun value => array? value s
  | '{' :: s => inner.bind fun value => braces? value s
  | s =>
    if s.head? = some '"' ∨ s.head? = some '\'' then
      (string? s).map fun p => (.string (String.ofList p.1), p.2)
    else if startsDate s || startsTime s then (skipMoment? s).map fun r => (.moment, r)
    else number? s

/-- Reads a value with at most the given depth of arrays and tables in braces. -/
def value? : (room : Nat) → ValueReader
  | 0 => valueWith? none
  | room + 1 => valueWith? (some (value? room))

/-! ## 4. Lines -/

/-- What stands in a line. -/
inductive Line where
  | blank
  | entry (e : Key × Value)
  | header (isElement : Bool) (key : Key)

/-- Reads what stands in a line, without the end of the line. -/
def line? (s : List Char) : Option (Line × List Char) :=
  match skipBlanks s with
  | [] => some (.blank, [])
  | '[' :: '[' :: r => do
    let (k, r) ← key? r
    let r ← Text.after? [']', ']'] r
    some (.header true k, r)
  | '[' :: r => do
    let (k, r) ← key? r
    let r ← Text.after? [']'] r
    some (.header false k, r)
  | c :: r =>
    if c = '#' ∨ c = '\n' ∨ c = '\r' then some (.blank, c :: r)
    else do
      let (e, r) ← entry? (value? maxNesting) (c :: r)
      some (.entry e, r)

/-- The document with one more line in front. -/
def Document.withLine (d : Document) : Line → Document
  | .blank => d
  | .entry e => d.withEntry e
  | .header isElement key => d.withHeader isElement key

/-- Reads lines up to the end of the text. -/
def lines? : (fuel : Nat) → List Char → Option Document
  | _, [] => some {}
  | 0, _ => none
  | fuel + 1, s => do
    let (l, r) ← line? s
    let r ← skipLine? r
    let d ← lines? fuel r
    some (d.withLine l)

/-- The text without a byte-order mark in front. -/
def dropMark : List Char → List Char
  | '\ufeff' :: s => s
  | s => s

/-- The document that a text spells. -/
def Document.read? (text : String) : Option Document :=
  let s := dropMark text.toList
  lines? s.length s

/-- The table that a text describes. -/
def parse? (text : String) : Option (List (String × Value)) :=
  (Document.read? text).bind Document.table?

end GoResolver.Toml
