import GoResolver.Json.Basic
import GoResolver.Text.Number

/-!
# Writing JSON text

Text is written with the short escapes where the standard has one, with the code point for every
other control character, and as it is otherwise.  The indented form puts every item and every member
on a line of its own, two spaces deeper than the bracket around it.
-/

namespace GoResolver.JsonValue

/-- One character of a string. -/
def escaped (c : Char) : List Char :=
  if c = '"' then ['\\', '"']
  else if c = '\\' then ['\\', '\\']
  else if c = '\x08' then ['\\', 'b']
  else if c = '\x0c' then ['\\', 'f']
  else if c = '\n' then ['\\', 'n']
  else if c = '\r' then ['\\', 'r']
  else if c = '\t' then ['\\', 't']
  else if c.toNat < 0x20 then ['\\', 'u'] ++ Text.paddedDigits 16 4 c.toNat
  else [c]

/-- A text as a JSON string. -/
def quotedText (s : String) : String :=
  String.ofList ('"' :: s.toList.flatMap escaped ++ ['"'])

/-- A line break and the indentation of a level. -/
def newLine (level : Nat) : String := "\n" ++ String.ofList (List.replicate (2 * level) ' ')

/-- Items on lines of their own between two brackets. -/
def bracketed (left right : String) (level : Nat) (items : List String) : String :=
  if items.isEmpty then left ++ right
  else left ++ newLine (level + 1) ++ String.intercalate ("," ++ newLine (level + 1)) items ++
    newLine level ++ right

mutual

/-- A value in the indented form, inside the given number of brackets. -/
def pretty (level : Nat) : JsonValue → String
  | .null => "null"
  | .bool b => toString b
  | .number text => text
  | .string text => quotedText (text.getD "")
  | .array items => bracketed "[" "]" level (prettyItems (level + 1) items)
  | .object members => bracketed "\x7b" "\x7d" level (prettyMembers (level + 1) members)

/-- The items of an array. -/
def prettyItems (level : Nat) : List JsonValue → List String
  | [] => []
  | v :: vs => pretty level v :: prettyItems level vs

/-- The members of an object. -/
def prettyMembers (level : Nat) : List (Option String × JsonValue) → List String
  | [] => []
  | (key, v) :: ms =>
    (quotedText (key.getD "") ++ ": " ++ pretty level v) :: prettyMembers level ms

end

end GoResolver.JsonValue
