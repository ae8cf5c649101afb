import GoResolver.Json.Reader
import GoResolver.Json.Writer

/-!
# What JSON is read and written with

A `JsonLibrary` is a choice of two functions, one that reads text as a value and one that writes a
value as text.  All that is relied on of them is that text is read as the value that it was written
for, if the value has no numbers and all its strings are texts (`JsonLibrary.ReadsBack`).
-/

namespace GoResolver

/-- The functions that JSON is read and written with. -/
structure JsonLibrary where
  /-- The value that a text describes, if it is in the format. -/
  parse? : (text : String) → Option JsonValue
  /-- The text of a value. -/
  print : JsonValue → String

/-- A value without numbers, all of whose strings are texts. -/
inductive JsonValue.IsTextual : JsonValue → Prop where
  | null : IsTextual .null
  | bool (b : Bool) : IsTextual (.bool b)
  | string (s : String) : IsTextual (.string (some s))
  | array {items : List JsonValue} (each : ∀ v ∈ items, IsTextual v) : IsTextual (.array items)
  | object {members : List (Option String × JsonValue)}
      (keys : ∀ m ∈ members, m.1.isSome = true) (each : ∀ m ∈ members, IsTextual m.2) :
      IsTextual (.object members)

namespace JsonLibrary

/-- The functions that the program runs with.  It writes the indented form. -/
def standard : JsonLibrary where
  parse? := JsonValue.parse?
  print := JsonValue.pretty 0

/-- **Text is read as the value that it was written for.** -/
def ReadsBack (lib : JsonLibrary) : Prop :=
  ∀ v : JsonValue, v.IsTextual → lib.parse? (lib.print v) = some v

end JsonLibrary

end GoResolver
