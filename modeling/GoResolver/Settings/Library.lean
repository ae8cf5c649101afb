import GoResolver.Settings.Variable
import GoResolver.Toml.Reader
import GoResolver.Toml.Writer

/-!
# What settings are read and written with

Four functions know nothing about settings and still decide what they come to: one reads the text of
a file, one writes it, one lays a layer over another, and one finds a value in the text of a
variable.  A `SettingsLibrary` is a choice of the four, and whatever loads or saves settings is a
function of it.  The program runs with `SettingsLibrary.standard`.
-/

namespace GoResolver

/-- The functions that settings are read and written with. -/
structure SettingsLibrary where
  /-- The table that the text of a file describes, if it is in the format. -/
  parse? : (text : String) → Option (List (String × Toml.Value))
  /-- The text of a document. -/
  print : Toml.Draft → String
  /-- One layer over another. -/
  stack : (lower upper : Layer) → Layer
  /-- The value that the text of a variable denotes. -/
  valueOf : (text : String) → Setting

namespace SettingsLibrary

/-- The functions that the program runs with. -/
def standard : SettingsLibrary where
  parse? := Toml.parse?
  print := Toml.Draft.text
  stack := Setting.stack
  valueOf := Variable.valueOf

variable (lib : SettingsLibrary)

/-- The table in which names lead to a value. -/
def nested (v : Setting) : List String → Setting
  | [] => v
  | name :: rest => .table [(name, nested v rest)]

/-- The layer of a single variable. -/
def layerOf (name text : String) : Layer :=
  match Variable.place? name with
  | some (first :: rest) => [(first, nested (lib.valueOf text) rest)]
  | _ => []

/-- The settings in an environment; a later variable lies over an earlier one. -/
def layer (environment : List (String × String)) : Layer :=
  environment.foldl (fun l e => lib.stack l (lib.layerOf e.1 e.2)) []

end SettingsLibrary

end GoResolver
