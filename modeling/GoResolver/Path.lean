import GoResolver.Text.Search

/-!
# Paths

A path is kept as it was written, because messages and answers show it that way.  What a path
*means* is its list of components: repeated and trailing slashes do not count, nor does a `.` unless
it stands first in a relative path; `..` is kept.  Two paths are the same path when their components
agree (`Path.Same`).

Between the text and the components lies the spelling: a `lead`, which is the root or a first `.`,
and a `body` of segments between slashes, of which the empty ones and `.` are trivial.  Cutting a
path short (`take`, `parent?`) or taking components off its front (`drop`, `relativeTo?`) keeps the
spelling of what remains and only removes trivial segments at the cut.

`normalize` resolves `.` and `..` on the components alone.  It keeps a stack: `..` takes away the
component pushed last, whatever that is, and stays only when there is nothing to take away.
-/

namespace GoResolver

/-- A path as it was written. -/
structure Path where
  text : String
  deriving Repr, DecidableEq, Inhabited

/-- A component of a path. -/
inductive Component where
  /-- The root directory. -/
  | root
  /-- A `.` at the start of a relative path. -/
  | here
  /-- The parent directory. -/
  | up
  /-- An entry of a directory. -/
  | name (text : String)
  deriving Repr, DecidableEq

/-- The segment that a component is written as; the root has none but its slash. -/
def Component.segment : Component → String
  | .root => ""
  | .here => "."
  | .up => ".."
  | .name text => text

namespace Path

/-! ## 1. Spelling -/

/-- Whether a segment between slashes is no component. -/
def isTrivial (segment : String) : Bool := segment == "" || segment == "."

/-- The component that a segment is, if it is one. -/
def component? (segment : String) : Option Component :=
  if isTrivial segment then none
  else if segment = ".." then some .up
  else some (.name segment)

/-- The pieces of the text between slashes. -/
def segments (p : Path) : List String :=
  (Text.pieces '/' p.text.toList).map String.ofList

/-- Whether the path starts at the root. -/
def isAbsolute (p : Path) : Bool := p.text.toList.head? == some '/'

/-- The component that stands before the body: the root, or a first `.`. -/
def lead (p : Path) : Option Component :=
  if p.isAbsolute then some .root
  else if p.segments.head? = some "." then some .here
  else none

/-- The segments after the lead. -/
def body (p : Path) : List String :=
  match p.lead with
  | none => p.segments
  | some _ => p.segments.tail

/-- The text of segments with slashes between them. -/
def slashed (segments : List String) : String := String.intercalate "/" segments

/-- The path with a given lead and body. -/
def spell (lead : Option Component) (body : List String) : Path :=
  match lead with
  | some .root => ⟨"/" ++ slashed body⟩
  | some .here => if body.isEmpty then ⟨"."⟩ else ⟨"./" ++ slashed body⟩
  | _ => ⟨slashed body⟩

/-! ## 2. Components -/

/-- The components of a path, which are all that counts for which path it is. -/
def components (p : Path) : List Component :=
  p.lead.toList ++ p.body.filterMap component?

/-- The names among the components. -/
def names (p : Path) : List String :=
  p.components.filterMap fun
    | .name text => some text
    | _ => none

/-- Equality as paths. -/
def Same (p q : Path) : Prop := p.components = q.components

instance (p q : Path) : Decidable (Same p q) := inferInstanceAs (Decidable (_ = _))

/-! ## 3. Joining and cutting -/

/-- The path `q` seen from the directory `p`: an absolute `q` replaces `p`. -/
def join (p q : Path) : Path :=
  if q.isAbsolute then q
  else if p.text = "" ∨ p.text.toList.getLast? = some '/' then ⟨p.text ++ q.text⟩
  else ⟨p.text ++ "/" ++ q.text⟩

/-- The entry of the directory `p` with the given name. -/
def child (p : Path) (name : String) : Path := p.join ⟨name⟩

/-- The segments up to the given number of components. -/
def takeBody : Nat → List String → List String
  | 0, _ => []
  | _ + 1, [] => []
  | n + 1, s :: rest =>
    if isTrivial s then s :: takeBody (n + 1) rest else s :: takeBody n rest

/-- The segments after the given number of components. -/
def dropBody : Nat → List String → List String
  | 0, segments => segments
  | _ + 1, [] => []
  | n + 1, s :: rest => if isTrivial s then dropBody (n + 1) rest else dropBody n rest

/-- The segments without the trivial ones at the end. -/
def trimBody (segments : List String) : List String :=
  (segments.reverse.dropWhile isTrivial).reverse

/-- The path of the first components of a lead and a body. -/
def cut (lead : Option Component) (body : List String) (n : Nat) : Path :=
  match lead with
  | none => spell none (takeBody n body)
  | some lead => if n = 0 then spell none [] else spell (some lead) (takeBody (n - 1) body)

/-- The path of the first components. -/
def take (n : Nat) (p : Path) : Path := cut p.lead p.body n

/-- The path of the components after the first ones. -/
def drop (n : Nat) (p : Path) : Path :=
  if n = 0 then spell p.lead (trimBody p.body)
  else spell none (trimBody ((dropBody (n - p.lead.toList.length) p.body).dropWhile isTrivial))

/-- How many components a path has at least when it is a directory above others: an absolute path
keeps its root. -/
def floor (p : Path) : Nat := if p.isAbsolute then 1 else 0

/-- The path without its last component; neither the root nor the empty path has one to lose. -/
def parent? (p : Path) : Option Path :=
  let n := p.components.length
  if p.floor < n then some (p.take (n - 1)) else none

/-- The path, its parent, the parent's parent and so on. -/
def ancestors (p : Path) : List Path :=
  let n := p.components.length
  let lead := p.lead
  let body := p.body
  p :: (List.range (n - p.floor)).map fun k => cut lead body (n - 1 - k)

/-- Each ancestor is made of one component less than the one before it. -/
theorem ancestors_eq (p : Path) :
    p.ancestors = p :: (List.range (p.components.length - p.floor)).map
      fun k => p.take (p.components.length - 1 - k) := rfl

/-- The rest of the path below a directory that contains it. -/
def relativeTo? (p dir : Path) : Option Path :=
  if dir.components.isPrefixOf p.components then some (p.drop dir.components.length) else none

/-- Two lists without the beginning that they share. -/
def dropShared : List Component → List Component → List Component × List Component
  | a :: as, b :: bs => if a = b then dropShared as bs else (a :: as, b :: bs)
  | as, bs => (as, bs)

/-! ## 4. Resolving `.` and `..` -/

/-- Puts one component on a stack of components, innermost first. -/
def settle : List Component → Component → List Component
  | stack, .here => stack
  | [], .up => [.up]
  | .root :: stack, .up => .up :: .root :: stack
  | _ :: stack, .up => stack
  | stack, c => c :: stack

/-- The path with the given components. -/
def ofComponents : List Component → Path
  | .root :: cs => ⟨"/" ++ slashed (cs.map Component.segment)⟩
  | cs => ⟨slashed (cs.map Component.segment)⟩

/-- The way from a directory to a path: up to where they part, and down again. -/
def seenFrom (p dir : Path) : Path :=
  let (rest, others) := dropShared p.components dir.components
  ofComponents (others.map (fun _ => .up) ++ rest)

/-- A path as someone in a directory reads it: the way there, when it is shorter. -/
def shownFrom (p dir : Path) : Path :=
  let way := p.seenFrom dir
  if way.components.length < p.components.length then way else p

/-- The path with `.` and `..` resolved on its components. -/
def normalize (p : Path) : Path :=
  ofComponents (p.components.foldl settle []).reverse

/-- The names of a path below a directory, with slashes between them. -/
def slashNames (p : Path) : String := slashed p.names

end Path

instance : ToString Path := ⟨Path.text⟩

end GoResolver
