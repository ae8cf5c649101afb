import GoResolver.Text.Number

/-!
# Decimals and exact fractions

A decimal is a whole number of units of a power of ten.  Comparing and rounding is done on exact
fractions of natural numbers: nothing here is approximate, and a fraction is never reduced.
-/

namespace GoResolver

/-! ## 1. Fractions -/

/-- A fraction of natural numbers. -/
structure Fraction where
  num : Nat
  den : Nat
  deriving Repr, DecidableEq

namespace Fraction

/-- The fraction times a power of a base, which may be negative. -/
def scale (f : Fraction) (base : Nat) (exponent : Int) : Fraction where
  num := f.num * Nat.pow base exponent.toNat
  den := f.den * Nat.pow base (-exponent).toNat

/-- The order of fractions, by multiplying crosswise. -/
def le (a b : Fraction) : Bool := a.num * b.den ≤ b.num * a.den

/-- The strict order of fractions. -/
def lt (a b : Fraction) : Bool := a.num * b.den < b.num * a.den

/-- The whole number at or below a fraction. -/
def floor (f : Fraction) : Nat := f.num / f.den

/-- The nearest whole number; of two the even one. -/
def roundEven (f : Fraction) : Nat :=
  let low := f.num / f.den
  let twice := 2 * (f.num % f.den)
  if twice < f.den ∨ (twice = f.den ∧ low % 2 = 0) then low else low + 1

end Fraction

/-! ## 2. Decimals -/

/-- A whole number of units of a power of ten. -/
structure Decimal where
  digits : Nat
  exponent : Int
  deriving Repr, DecidableEq

namespace Decimal

/-- The decimal as a fraction. -/
def toFraction (d : Decimal) : Fraction := (⟨d.digits, 1⟩ : Fraction).scale 10 d.exponent

/-- How many decimal digits stand before the point, or how many zeros follow it as a negative
number. -/
def magnitude (d : Decimal) : Int := (Text.digits 10 d.digits).length + d.exponent

/-- The text of digits with a point before the last `places` of them; zeros fill up in front. -/
def withPoint (digits : List Char) (places : Nat) : List Char :=
  let padded := List.replicate (places + 1 - digits.length) '0' ++ digits
  let whole := padded.length - places
  let fraction := ((padded.drop whole).reverse.dropWhile (· == '0')).reverse
  padded.take whole ++ if fraction.isEmpty then [] else '.' :: fraction

/-- The text of a decimal without an exponent and without zeros at the end of its fraction. -/
def positional (d : Decimal) : List Char :=
  if d.exponent < 0 then withPoint (Text.digits 10 d.digits) (-d.exponent).toNat
  else Text.digits 10 (d.digits * Nat.pow 10 d.exponent.toNat)

end Decimal

end GoResolver
