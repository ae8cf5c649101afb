import GoResolver.Decimal.Binary64

/-!
# TOML values

The values of the TOML format.  Of a date or a time nothing is kept but that it is one.
-/

namespace GoResolver.Toml

/-- A TOML value. -/
inductive Value where
  | string (text : String)
  | integer (n : Int)
  | float (x : Binary64)
  | boolean (b : Bool)
  /-- A date, a time, or both. -/
  | moment
  | array (items : List Value)
  | table (entries : List (String × Value))
  deriving Repr, Inhabited

/-- The name of an entry below a table: the tables on the way, and the last name. -/
structure Key where
  above : List String := []
  name : String
  deriving Repr, DecidableEq, Inhabited

/-- The key one table further down. -/
def Key.below (k : Key) (table : String) : Key := { k with above := table :: k.above }

end GoResolver.Toml
