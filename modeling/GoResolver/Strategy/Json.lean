import GoResolver.Json.Basic
import GoResolver.Strategy

/-!
# Session options as JSON
-/

namespace GoResolver.SuggestOptions

/-- Reads session options; every field must be there. -/
def ofJson? (v : JsonValue) : Option SuggestOptions :=
  match v.fields? ["propose_builtins", "debug", "source"] with
  | some [some proposeBuiltins, some debug, some source] => do
    let proposeBuiltins ← proposeBuiltins.bool?
    let debug ← debug.bool?
    let source ← source.bool?
    some { proposeBuiltins, debug, source }
  | _ => none

end GoResolver.SuggestOptions
