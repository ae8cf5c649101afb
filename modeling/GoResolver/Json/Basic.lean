/-!
# JSON values

A value keeps the members of an object in the order in which they are written, with every
repetition. A JSON string can spell half of a surrogate pair, which is no text; such a string is
`none`, and only who looks at it needs to care.
-/

namespace GoResolver

/-- A JSON value. -/
inductive JsonValue where
  | null
  | bool (b : Bool)
  /-- A number, as it is written. -/
  | number (text : String)
  | string (text : Option String)
  | array (items : List JsonValue)
  | object (members : List (Option String × JsonValue))
  deriving Repr, Inhabited

namespace JsonValue

/-- The value of a text. -/
def ofString (s : String) : JsonValue := .string (some s)

/-- The object with the given members. -/
def ofMembers (members : List (String × JsonValue)) : JsonValue :=
  .object (members.map fun m => (some m.1, m.2))

/-- The text that a value is, if it is one. -/
def text? : JsonValue → Option String
  | .string s => s
  | _ => none

/-- The truth value that a value is, if it is one. -/
def bool? : JsonValue → Option Bool
  | .bool b => some b
  | _ => none

/-! ## Records

A record with named fields is written as an object, or as an array of its fields in order.  In an
object, members that are no field are passed over, but every key must be a text and no field may
occur twice. -/

/-- The values of the named fields of a record, where it has them. -/
def fields? (names : List String) : JsonValue → Option (List (Option JsonValue))
  | .array items =>
    if items.length ≤ names.length then
      some (items.map some ++ List.replicate (names.length - items.length) none)
    else none
  | .object members =>
    if members.any (·.1.isNone) then none
    else if names.all fun n => (members.filter (·.1 == some n)).length ≤ 1 then
      some (names.map fun n => members.lookup (some n))
    else none
  | _ => none

end JsonValue

end GoResolver
