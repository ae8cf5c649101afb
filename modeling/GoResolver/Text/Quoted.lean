import GoResolver.Text.Number
import GoResolver.Text.Printable

/-!
# Quoted text

The form in which messages show a piece of text: between quotes, with a backslash before a backslash
and before the quote in use, short escapes for the null character, tab, carriage return and line
feed, and the code point in braces for every other character that is not printable.
-/

namespace GoResolver.Text

/-- The code point of a character between braces, after a backslash and a `u`. -/
def codePointEscape (c : Char) : List Char :=
  ['\\', 'u', '{'] ++ digits 16 c.toNat ++ ['}']

/-- One character inside quotes of the given kind. -/
def quotedChar (quote c : Char) : List Char :=
  if c = '\x00' then ['\\', '0']
  else if c = '\t' then ['\\', 't']
  else if c = '\r' then ['\\', 'r']
  else if c = '\n' then ['\\', 'n']
  else if c = '\\' then ['\\', '\\']
  else if c = quote then ['\\', c]
  else if isPrintable c then [c]
  else codePointEscape c

/-- A text between quotes of the given kind. -/
def quotedBy (quote : Char) (s : List Char) : List Char :=
  quote :: s.flatMap (quotedChar quote) ++ [quote]

/-- A text between double quotes. -/
def quoted (s : String) : String := String.ofList (quotedBy '"' s.toList)

/-- A character between single quotes. -/
def quotedOne (c : Char) : String := String.ofList (quotedBy '\'' [c])

end GoResolver.Text
