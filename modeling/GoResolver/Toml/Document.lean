import GoResolver.Toml.Table

/-!
# Documents

A document is a preamble and a list of sections; each section has a header, which names a table or
adds a table to a list of tables, and the entries below it.

`Document.table?` puts the pieces together.  It fails when two pieces do not go together: an entry
or a table is defined twice, or something that is no table is used as one.
-/

namespace GoResolver.Toml

/-- A header and the entries below it. -/
structure Section where
  /-- Whether the header is in double brackets and so adds a table to a list. -/
  isElement : Bool := false
  key : Key
  entries : List (Key × Value) := []
  deriving Repr, Inhabited

/-- The entries before the first header, and the sections. -/
structure Document where
  preamble : List (Key × Value) := []
  sections : List Section := []
  deriving Repr, Inhabited

namespace Section

/-- The change that declares a section's table: anew, or where it was only implied. -/
def declare (s : Section) : Option Item → Option Item
  | none => (assignAll [] s.entries).map (Item.table .declared)
  | some (.table .implied entries) => (assignAll entries s.entries).map (Item.table .declared)
  | some _ => none

/-- The change that adds a section's table to a list of tables. -/
def append (s : Section) : Option Item → Option Item
  | none => (assignAll [] s.entries).map fun t => .tables [t]
  | some (.tables elements) => (assignAll [] s.entries).map fun t => .tables (elements ++ [t])
  | some _ => none

/-- Puts a section into the table that the pieces before it make up. -/
def addTo (root : List (String × Item)) (s : Section) : Option (List (String × Item)) :=
  alter false s.key.name (if s.isElement then s.append else s.declare) s.key.above root

end Section

namespace Document

/-- The document with one more entry in front. -/
def withEntry (d : Document) (entry : Key × Value) : Document :=
  { d with preamble := entry :: d.preamble }

/-- The document with one more header in front, which takes over the preamble. -/
def withHeader (d : Document) (isElement : Bool) (key : Key) : Document where
  sections := ⟨isElement, key, d.preamble⟩ :: d.sections

/-- The table that a document describes. -/
def table? (d : Document) : Option (List (String × Value)) := do
  let root ← assignAll [] d.preamble
  let root ← d.sections.foldlM Section.addTo root
  some (finishEntries root)

end Document

end GoResolver.Toml
