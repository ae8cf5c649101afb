import GoResolver.GoContext.Basic
import GoResolver.Text.Search

/-!
# Which file names build for a target

A Go source file's name ends in `.go`.  Before that stands the stem, which must not be empty, start
with `_` or `.`, or end in `_test`.  A stem with an underscore may ask for a target in its last
elements: an operating system, an architecture, or both in this order.  What stands before the first
underscore never asks for anything.
-/

namespace GoResolver.GoContext

/-- The stem of a source file's name, if files of that name are considered at all. -/
def stem? (name : String) : Option (List Char) :=
  match Text.before? ".go".toList name.toList with
  | none => none
  | some stem =>
    if stem.isEmpty ∨ stem.head? = some '_' ∨ stem.head? = some '.' ∨
        (Text.before? "_test".toList stem).isSome then none
    else some stem

/-- The elements of a stem after its first underscore; `none` when it has no underscore. -/
def qualifiers? (stem : List Char) : Option (List String) :=
  match Text.pieces '_' stem with
  | [] | [_] => none
  | _ :: rest => some (rest.map String.ofList)

/-- Whether the last elements of a stem, innermost first, ask for the target. -/
def matchesQualifiers (ctx : GoContext) : List String → Bool
  | arch :: system :: _ =>
    if knownSystems.contains system && knownArchitectures.contains arch then
      ctx.matchesSystem system && arch == ctx.goarch
    else matchesLast ctx arch
  | [last] => matchesLast ctx last
  | [] => true
where
  /-- Whether the last element of a stem asks for the target or for none. -/
  matchesLast (ctx : GoContext) (last : String) : Bool :=
    if knownSystems.contains last then ctx.matchesSystem last
    else if knownArchitectures.contains last then last == ctx.goarch
    else true

/-- Whether a file of this name can build for the target. -/
def isBuildableName (ctx : GoContext) (name : String) : Bool :=
  match stem? name with
  | none => false
  | some stem =>
    match qualifiers? stem with
    | none => true
    | some elements => ctx.matchesQualifiers elements.reverse

end GoResolver.GoContext
