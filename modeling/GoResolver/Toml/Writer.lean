import GoResolver.Toml.Quoted
import GoResolver.Toml.Value

/-!
# Writing TOML text

A string is written in the plainest quotes that take it:

1. double quotes, where nothing but a tab would need an escape and no line breaks;
2. single quotes, where there is no single quote in it either and no line breaks;
3. triple double quotes, where there is no backslash and no long run of double quotes;
4. triple single quotes, where there is no long run of single quotes;
5. otherwise double quotes with escapes, triple ones when a line breaks.

Control characters can only be written as escapes, so they lead to the last case.  Quotes are triple
when they need to be, and the opening ones are followed by a line break when a line breaks inside.

An array with more than one item has an item a line.

A document is written as a `Draft`: first the fields of the document itself, a line each, and then
its tables, each with a header and the lines of its fields.
-/

namespace GoResolver.Toml

/-! ## 1. Strings -/

/-- The length of the longest run of a character, after a run of the given length. -/
def longestRun (c : Char) (run : Nat) : List Char → Nat
  | [] => run
  | a :: s => if a = c then longestRun c (run + 1) s else max run (longestRun c 0 s)

/-- Whether a character has to be written as an escape: a control character that is neither a tab
nor a line feed. -/
def isControl (c : Char) : Bool :=
  (c.toNat < 0x20 && c != '\t' && c != '\n') || c.toNat == 0x7f

/-- The ways to quote a string. -/
inductive Style where
  | basic
  | literal
  | tripleBasic
  | tripleLiteral
  deriving Repr, DecidableEq

/-- The style that a string is written in. -/
def styleOf (s : List Char) : Style :=
  let controls := s.any isControl
  let breaks := s.contains '\n'
  if !controls && !s.contains '\\' && !s.contains '"' && !breaks then .basic
  else if !controls && !s.contains '\'' && !breaks then .literal
  else if !controls && !s.contains '\\' && longestRun '"' 0 s ≤ 2 then .tripleBasic
  else if !controls && longestRun '\'' 0 s ≤ 2 then .tripleLiteral
  else if breaks then .tripleBasic
  else .basic

/-- The hexadecimal digits of a code point, four at least, in upper case. -/
def codeDigits (n : Nat) : List Char := (Text.paddedDigits 16 4 n).map Char.toUpper

/-- A character between double quotes that is no double quote. -/
def escaped (triple : Bool) (c : Char) : List Char :=
  if c = '\x08' then ['\\', 'b']
  else if c = '\t' then ['\\', 't']
  else if c = '\n' then if triple then ['\n'] else ['\\', 'n']
  else if c = '\x0c' then ['\\', 'f']
  else if c = '\r' then ['\\', 'r']
  else if c = '\\' then ['\\', '\\']
  else if isControl c then ['\\', 'u'] ++ codeDigits c.toNat
  else [c]

/-- Characters between double quotes, after a run of double quotes of the given length.  Only triple
quotes take double quotes as they are, and no more than two in a row. -/
def escapedFrom (triple : Bool) (run : Nat) : List Char → List Char
  | [] => []
  | c :: s =>
    if c = '"' then
      if triple ∧ run < 2 then '"' :: escapedFrom triple (run + 1) s
      else '\\' :: '"' :: escapedFrom triple 0 s
    else escaped triple c ++ escapedFrom triple 0 s

/-- What follows the opening quotes: a line break when a line breaks in the string. -/
def openingBreak (s : List Char) : List Char := if s.contains '\n' then ['\n'] else []

/-- Three times a quote. -/
def tripled (quote : Char) : List Char := [quote, quote, quote]

/-- A string in a style. -/
def inStyle (s : List Char) : Style → List Char
  | .basic => '"' :: escapedFrom false 0 s ++ ['"']
  | .literal => '\'' :: s ++ ['\'']
  | .tripleBasic => tripled '"' ++ openingBreak s ++ escapedFrom true 0 s ++ tripled '"'
  | .tripleLiteral => tripled '\'' ++ openingBreak s ++ s ++ tripled '\''

/-- The text of a string. -/
def stringText (s : String) : List Char := inStyle s.toList (styleOf s.toList)

/-! ## 2. Other values -/

/-- The text of a truth value. -/
def booleanText (b : Bool) : List Char := (toString b).toList

/-- The text of a number. -/
def naturalText (n : Nat) : List Char := Text.digits 10 n

/-- An item of an array in a line of its own. -/
def itemLine (item : List Char) : List Char := [' ', ' ', ' ', ' '] ++ item ++ [',', '\n']

/-- The text of an array of the given items. -/
def arrayText : List (List Char) → List Char
  | [] => ['[', ']']
  | [item] => '[' :: item ++ [']']
  | items => '[' :: '\n' :: items.flatMap itemLine ++ [']']

/-- The text of an array of strings. -/
def stringsText (items : List String) : List Char := arrayText (items.map stringText)

/-- A value of a field. -/
inductive Datum where
  | text (s : String)
  | natural (n : Nat)
  | truth (b : Bool)
  | texts (items : List String)
  deriving Repr, DecidableEq

namespace Datum

/-- The value as one of the format. -/
def value : Datum → Value
  | .text s => .string s
  | .natural n => .integer n
  | .truth b => .boolean b
  | .texts items => .array (items.map .string)

/-- The text of the value. -/
def chars : Datum → List Char
  | .text s => stringText s
  | .natural n => naturalText n
  | .truth b => booleanText b
  | .texts items => stringsText items

end Datum

/-! ## 3. Documents -/

/-- A field: its name and its value. -/
abbrev Field := String × Datum

/-- The fields that have a value. -/
def present (fields : List (String × Option Datum)) : List Field :=
  fields.filterMap fun f => f.2.map fun d => (f.1, d)

/-- Fields as entries of a table. -/
def entriesOf (fields : List Field) : List (String × Value) :=
  fields.map fun f => (f.1, f.2.value)

/-- A document to be written: its own fields, and its tables. -/
structure Draft where
  fields : List Field
  tables : List (String × List Field)
  deriving Repr, DecidableEq

/-- The entries of the document. -/
def Draft.entries (d : Draft) : List (String × Value) :=
  entriesOf d.fields ++ d.tables.map fun t => (t.1, .table (entriesOf t.2))

/-- A line with an entry. -/
def entryLine (name : String) (value : List Char) : List Char :=
  name.toList ++ [' ', '=', ' '] ++ value ++ ['\n']

/-- The lines of fields. -/
def fieldLines (fields : List Field) : List Char :=
  fields.flatMap fun f => entryLine f.1 f.2.chars

/-- An empty line and a line with a header. -/
def headerLines (name : String) : List Char := '\n' :: '[' :: name.toList ++ [']', '\n']

/-- The text of the document. -/
def Draft.chars (d : Draft) : List Char :=
  fieldLines d.fields ++ d.tables.flatMap fun t => headerLines t.1 ++ fieldLines t.2

/-- The text of the document. -/
def Draft.text (d : Draft) : String := String.ofList d.chars

end GoResolver.Toml
