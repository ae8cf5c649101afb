import GoResolver.Settings.Basic
import GoResolver.Settings.Layer
import GoResolver.Text.Number

/-!
# Settings from loosely typed values

Each setting has one type, and a value of another type is a fault; nothing is converted.  A record
is written as a table, in which unknown names are passed over and missing ones have their defaults,
or as a list of its fields in order.

The fields of a table are looked at in alphabetical order, and the first fault is the one that is
reported, together with its place.
-/

namespace GoResolver

/-- What is wrong with a value. -/
inductive SettingFault where
  | wrongType (found : Setting) (expected : String)
  | outOfRange (found : Setting) (expected : String)
  /-- A list of fields ends before the field of that index, which has no default. -/
  | tooShort (length : Nat) (expected : String)

/-- The message for a fault. -/
def SettingFault.message : SettingFault → String
  | .wrongType found expected =>
    "invalid type: found " ++ found.shown ++ ", expected " ++ expected
  | .outOfRange found expected =>
    "invalid value " ++ found.shown ++ ", expected " ++ expected
  | .tooShort length expected =>
    "invalid length " ++ toString length ++ ", expected " ++ expected

/-- A fault and the place of the faulty value. -/
structure SettingError where
  place : List Setting.Step
  fault : SettingFault

namespace Setting

/-- What reading a value of a type yields. -/
abbrev Typed (α : Type) := Except SettingError α

/-- The fault of a value at its own place. -/
def fail {α : Type} (fault : SettingFault) : Typed α := .error ⟨[], fault⟩

/-- The result for a value below a step. -/
def within {α : Type} (step : Step) : Typed α → Typed α
  | .ok x => .ok x
  | .error e => .error { e with place := step :: e.place }

/-! ## 1. Simple types -/

/-- A truth value. -/
def asBool : Setting → Typed Bool
  | .boolean b => .ok b
  | v => fail (.wrongType v "a boolean")

/-- A number of 32 bits. -/
def asWord32 : Setting → Typed Nat
  | .signed n =>
    if 0 ≤ n ∧ n < Text.word32Limit then .ok n.toNat else fail (.outOfRange (.signed n) "u32")
  | .unsigned n =>
    if n < Text.word32Limit then .ok n else fail (.outOfRange (.unsigned n) "u32")
  | v => fail (.wrongType v "u32")

/-- A text. -/
def asText : Setting → Typed String
  | .string text => .ok text
  | v => fail (.wrongType v "a string")

/-- A path. -/
def asPath : Setting → Typed Path
  | .string text => .ok ⟨text⟩
  | v => fail (.wrongType v "path string")

/-- The items of a list from the given index on. -/
def asItems {α : Type} (read : Setting → Typed α) (index : Nat) : List Setting → Typed (List α)
  | [] => .ok []
  | v :: vs => do
    let x ← within (.index index) (read v)
    let xs ← asItems read (index + 1) vs
    .ok (x :: xs)

/-- A list. -/
def asList {α : Type} (read : Setting → Typed α) : Setting → Typed (List α)
  | .list items => asItems read 0 items
  | v => fail (.wrongType v "a sequence")

/-! ## 2. Records -/

/-- The value of a field that a table may have. -/
def optional {α : Type} (entries : List (String × Setting)) (name : String)
    (read : Setting → Typed α) : Typed (Option α) :=
  match entries.lookup name with
  | none => .ok none
  | some v => within (.name name) (some <$> read v)

/-- The value of a field that has a default. -/
def withDefault {α : Type} (entries : List (String × Setting)) (name : String) (default : α)
    (read : Setting → Typed α) : Typed α :=
  (·.getD default) <$> optional entries name read

/-- The value of the field of an index, if the list has one. -/
def optionalAt {α : Type} (items : List Setting) (index : Nat) (read : Setting → Typed α) :
    Typed (Option α) :=
  match items[index]? with
  | none => .ok none
  | some v => within (.index index) (some <$> read v)

/-- The value of the field of an index, which has a default. -/
def defaultAt {α : Type} (items : List Setting) (index : Nat) (default : α)
    (read : Setting → Typed α) : Typed α :=
  (·.getD default) <$> optionalAt items index read

/-- The value of the field of an index, which the list must have. -/
def requiredAt {α : Type} (record : String) (items : List Setting) (index : Nat)
    (read : Setting → Typed α) : Typed (Option α) := do
  match ← optionalAt items index read with
  | none => fail (.tooShort index record)
  | some x => .ok (some x)

/-- The settings of completion sessions. -/
def asSuggest : Setting → Typed SuggestSettings
  | .table es => do
    let debug ← withDefault es "debug" false asBool
    let proposeBuiltins ← withDefault es "propose_builtins" true asBool
    let source ← withDefault es "source" false asBool
    .ok { proposeBuiltins, debug, source }
  | .list vs => do
    let proposeBuiltins ← defaultAt vs 0 true asBool
    let debug ← defaultAt vs 1 false asBool
    let source ← defaultAt vs 2 false asBool
    .ok { proposeBuiltins, debug, source }
  | v => fail (.wrongType v "struct SuggestConfig")

/-- The settings of the build. -/
def asBuild : Setting → Typed BuildSettings
  | .table es => do
    let buildTags ← withDefault es "build_tags" [] (asList asText)
    let cgoEnabled ← withDefault es "cgo_enabled" true asBool
    let goVersion ← optional es "go_version" asText
    let goarch ← optional es "goarch" asText
    let goos ← optional es "goos" asText
    let gopath ← withDefault es "gopath" [] (asList asPath)
    let goroot ← optional es "goroot" asPath
    .ok { goroot, gopath, goos, goarch, buildTags, cgoEnabled, goVersion }
  | .list vs => do
    let record := "struct BuildConfig with 7 elements"
    let goroot ← requiredAt record vs 0 asPath
    let gopath ← defaultAt vs 1 [] (asList asPath)
    let goos ← requiredAt record vs 2 asText
    let goarch ← requiredAt record vs 3 asText
    let buildTags ← defaultAt vs 4 [] (asList asText)
    let cgoEnabled ← defaultAt vs 5 true asBool
    let goVersion ← requiredAt record vs 6 asText
    .ok { goroot, gopath, goos, goarch, buildTags, cgoEnabled, goVersion }
  | v => fail (.wrongType v "struct BuildConfig")

/-- All settings. -/
def asSettings (layer : Layer) : Typed Settings := do
  let build ← withDefault layer "build" {} asBuild
  let debug ← withDefault layer "debug" false asBool
  let suggest ← withDefault layer "suggest" {} asSuggest
  let version ← withDefault layer "version" 1 asWord32
  let workspaceRoot ← optional layer "workspace_root" asPath
  .ok { version, workspaceRoot, debug, suggest, build }

end Setting

end GoResolver
