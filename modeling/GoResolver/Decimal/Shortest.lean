import GoResolver.Decimal.Binary64

/-!
# The shortest decimal of a binary number

The reals that read as a given number of the format form an interval, from halfway to the neighbour
below to halfway to the neighbour above, with its ends exactly when the significand is even.  A
number is shown as a decimal of that interval that has as few digits as possible and, among those,
is nearest to the number; of two equally near ones, the greater.

On a grid of decimals only the two neighbours of the number can be nearest, so `onGrid?` looks at
these, and `shortest` takes the first grid that has one in the interval.  Seventeen digits are
always enough.
-/

namespace GoResolver

namespace Binary64

/-- A positive number as a fraction. -/
def toFraction (significand : Nat) (exponent : Int) : Fraction :=
  (⟨significand, 1⟩ : Fraction).scale 2 exponent

/-- Whether a fraction reads as the given positive number. -/
def readsBack (significand : Nat) (exponent : Int) (f : Fraction) : Bool :=
  let isNarrow := significand = hiddenBit ∧ minExponent < exponent
  let low := toFraction (4 * significand - if isNarrow then 1 else 2) (exponent - 2)
  let high := toFraction (4 * significand + 2) (exponent - 2)
  if significand % 2 = 0 then low.le f && f.le high else low.lt f && f.lt high

/-- The multiple of a power of ten that reads back, the nearer one if two do. -/
def onGrid? (significand : Nat) (exponent grid : Int) : Option Decimal :=
  let value := toFraction significand exponent
  let below : Decimal := ⟨(value.scale 10 (-grid)).floor, grid⟩
  let above : Decimal := ⟨below.digits + 1, grid⟩
  let middle : Fraction := (⟨2 * below.digits + 1, 2⟩ : Fraction).scale 10 grid
  match readsBack significand exponent below.toFraction,
      readsBack significand exponent above.toFraction with
  | true, true => some (if value.lt middle then below else above)
  | true, false => some below
  | false, true => some above
  | false, false => none

/-- The number of digits before the point of a positive number, counted down below one. -/
def magnitude (significand : Nat) (exponent : Int) : Int :=
  let estimate := Int.fdiv (((Nat.log2 significand : Int) + exponent) * 30103) 100000
  let value := toFraction significand exponent
  let isBelow (k : Int) : Bool := value.lt ((⟨1, 1⟩ : Fraction).scale 10 k)
  if isBelow estimate then estimate
  else if isBelow (estimate + 1) then estimate + 1
  else estimate + 2

/-- The decimal with the fewest digits that reads back. -/
def shortest (significand : Nat) (exponent : Int) : Decimal :=
  let top := magnitude significand exponent
  ((List.range 17).findSome? fun (n : Nat) =>
    onGrid? significand exponent (top - 1 - (n : Int))).getD ⟨0, 0⟩

/-- The text of a number, without an exponent. -/
def text : Binary64 → String
  | .nan => "NaN"
  | .infinite negative => (if negative then "-" else "") ++ "inf"
  | .finite negative significand exponent =>
    (if negative then "-" else "") ++
      if significand = 0 then "0" else String.ofList (shortest significand exponent).positional

end Binary64

end GoResolver
