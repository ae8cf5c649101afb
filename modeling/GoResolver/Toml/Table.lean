import GoResolver.Entries
import GoResolver.Toml.Value

/-!
# Tables

A table can be written piece by piece, but each table is defined in one way only, and what a later
piece may still add depends on how the table came about (`Origin`):

* a table that was *declared*, by a header of its own or by braces, takes no entry from a dotted key
  of another place;
* a table that is only *implied*, by a header of a table below it, may be declared later;
* a table that a *dotted* key made takes further entries from dotted keys, and cannot be declared.

`alter` walks down a path, makes the tables that are missing, and changes the entry at its end; the
change sees what was there before and may refuse.
-/

namespace GoResolver.Toml

/-- How a table came about. -/
inductive Origin where
  | declared
  | implied
  | dotted
  deriving Repr, DecidableEq

/-- An entry of a table that is still being written. -/
inductive Item where
  | value (v : Value)
  | table (origin : Origin) (entries : List (String × Item))
  /-- The tables that headers in double brackets made, in order. -/
  | tables (elements : List (List (String × Item)))
  deriving Inhabited

/-- Whether a walk may enter a table: one for a dotted key or one for a header, at the last table of
its path or before it. -/
def Origin.admits (byDots isLast : Bool) : Origin → Bool
  | .declared => !byDots
  | .implied => !(byDots && isLast)
  | .dotted => true

/-- Changes the entry of a name in the table at the end of a path.  In a list of tables the last one
counts, and it is entered like a table that is only implied. -/
def alter (byDots : Bool) (name : String) (change : Option Item → Option Item) :
    List String → List (String × Item) → Option (List (String × Item))
  | [], entries => (change (entries.lookup name)).map fun item => setEntry name item entries
  | part :: path, entries => do
    let item ← match entries.lookup part with
      | none =>
        (alter byDots name change path []).map
          (Item.table (if byDots then .dotted else .implied))
      | some (.value _) => none
      | some (.table origin inner) =>
        if origin.admits byDots path.isEmpty then
          (alter byDots name change path inner).map (Item.table origin)
        else none
      | some (.tables elements) =>
        match elements.getLast? with
        | none => none
        | some last =>
          if Origin.implied.admits byDots path.isEmpty then
            (alter byDots name change path last).map fun t =>
              Item.tables (elements.dropLast ++ [t])
          else none
    some (setEntry part item entries)

/-- The change that makes a new entry and refuses to replace one. -/
def fresh (item : Item) : Option Item → Option Item
  | none => some item
  | some _ => none

/-- Adds an entry to a table, where there must not be one yet. -/
def assign (entries : List (String × Item)) (entry : Key × Value) :
    Option (List (String × Item)) :=
  alter true entry.1.name (fresh (.value entry.2)) entry.1.above entries

/-- Adds entries in order. -/
def assignAll (entries : List (String × Item)) (new : List (Key × Value)) :
    Option (List (String × Item)) := new.foldlM assign entries

/-! ## The finished table -/

mutual

/-- The value that an item stands for. -/
def Item.finish : Item → Value
  | .value v => v
  | .table _ entries => .table (finishEntries entries)
  | .tables elements => .array (finishTables elements)

/-- The values of a table's entries. -/
def finishEntries : List (String × Item) → List (String × Value)
  | [] => []
  | (name, item) :: rest => (name, item.finish) :: finishEntries rest

/-- The values of a list of tables. -/
def finishTables : List (List (String × Item)) → List Value
  | [] => []
  | entries :: rest => .table (finishEntries entries) :: finishTables rest

end

/-- The table that entries between braces make up. -/
def inlineTable? (entries : List (Key × Value)) : Option Value :=
  (assignAll [] entries).map fun es => .table (finishEntries es)

end GoResolver.Toml
