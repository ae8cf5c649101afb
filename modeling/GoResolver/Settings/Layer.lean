import GoResolver.Decimal.Shortest
import GoResolver.Entries
import GoResolver.Text.Quoted
import GoResolver.Toml.Value

/-!
# Layers of settings

Where settings come from, they are loosely typed: a `Setting` is a value before anything is known
about what it is for.  A layer is a table of such values.

`stack lower upper` lays one layer over another.  Where both have a table under a name the two
tables are laid over each other in the same way; any other value of the upper layer replaces what is
below it, and what the upper layer does not mention shows through.
-/

namespace GoResolver

/-- A value of some source of settings. -/
inductive Setting where
  | string (text : String)
  | boolean (b : Bool)
  /-- A whole number from a source in which numbers have a sign. -/
  | signed (n : Int)
  /-- A whole number from a source in which numbers without a sign are of their own type. -/
  | unsigned (n : Nat)
  | float (x : Binary64)
  | list (items : List Setting)
  | table (entries : List (String × Setting))
  deriving Repr, Inhabited

namespace Setting

/-- How messages show a value. -/
def shown : Setting → String
  | .string text => "string " ++ Text.quoted text
  | .boolean b => "bool " ++ toString b
  | .signed n => "signed int " ++ "`" ++ toString n ++ "`"
  | .unsigned n => "unsigned int " ++ "`" ++ toString n ++ "`"
  | .float x => "float " ++ "`" ++ x.text ++ "`"
  | .list _ => "sequence"
  | .table _ => "map"

/-! ## 1. From TOML

Two names are reserved in the tables of a file.  A table with an entry `contentName` is a wrapper:
it stands for the value of that entry, and its other entries do not count.  An entry `originName`
would say which source a value comes from; a file cannot know that, and one that claims it is
refused.
-/

/-- The name of the entry that a wrapper stands for. -/
def contentName : String := "___figment_value_value"

/-- The name of the entry that no file may have. -/
def originName : String := "___figment_value_id"

/-- The value that a table with the given entries is, if the entries may be those of a file. -/
def ofEntries? (entries : List (String × Setting)) : Option Setting :=
  if (entries.lookup originName).isSome then none
  else some ((entries.lookup contentName).getD (.table entries))

/-- A table without reserved names is just a table. -/
theorem ofEntries?_of_lookup {entries : List (String × Setting)}
    (horigin : entries.lookup originName = none) (hcontent : entries.lookup contentName = none) :
    ofEntries? entries = some (.table entries) := by
  simp [ofEntries?, horigin, hcontent]

mutual

/-- The setting that a TOML value is.  A date or a time is a table without entries of interest. -/
def ofToml? : Toml.Value → Option Setting
  | .string text => some (.string text)
  | .integer n => some (.signed n)
  | .float x => some (.float x)
  | .boolean b => some (.boolean b)
  | .moment => some (.table [])
  | .array items => (ofTomlItems? items).map .list
  | .table entries => (ofTomlEntries? entries).bind ofEntries?

/-- The settings that the items of an array are. -/
def ofTomlItems? : List Toml.Value → Option (List Setting)
  | [] => some []
  | v :: vs => do
    let x ← ofToml? v
    let xs ← ofTomlItems? vs
    some (x :: xs)

/-- The settings that the entries of a table are. -/
def ofTomlEntries? : List (String × Toml.Value) → Option (List (String × Setting))
  | [] => some []
  | (name, v) :: rest => do
    let x ← ofToml? v
    let xs ← ofTomlEntries? rest
    some ((name, x) :: xs)

end

/-! ## 2. Places -/

/-- A step on the way to a value: into a table or into a list. -/
inductive Step where
  | name (text : String)
  | index (n : Nat)
  deriving Repr, DecidableEq

/-- The text of a step. -/
def Step.text : Step → String
  | .name text => text
  | .index n => toString n

/-- The value at a place. -/
def at? : Setting → List Step → Option Setting
  | v, [] => some v
  | .table entries, .name text :: rest =>
    match entries.lookup text with
    | some v => v.at? rest
    | none => none
  | .list items, .index n :: rest =>
    match items[n]? with
    | some v => v.at? rest
    | none => none
  | _, _ => none

/-! ## 3. Laying over -/

mutual

/-- The value where a layer has one and there is, or is not, one below it. -/
def overlay : (upper : Setting) → (lower : Option Setting) → Setting
  | .table upper, some (.table lower) => .table (stack lower upper)
  | upper, _ => upper

/-- One layer over another. -/
def stack (lower : List (String × Setting)) : (upper : List (String × Setting)) →
    List (String × Setting)
  | [] => lower
  | (name, v) :: upper => stack (setEntry name (v.overlay (lower.lookup name)) lower) upper

end

end Setting

/-- A table of settings from one source. -/
abbrev Layer := List (String × Setting)

end GoResolver
