import GoResolver.Decimal.Basic

/-!
# Binary numbers of 64 bits

A finite number of the format is `significand * 2 ^ exponent` with a significand below `2 ^ 53` and
an exponent from `-1074` to `971`; below `2 ^ 52` the significand has the least exponent.  Reading a
decimal yields the nearest number of the format, of two the one with the even significand, and an
infinity when the nearest would need a greater exponent.
-/

namespace GoResolver

/-- A number of the 64-bit binary format. -/
inductive Binary64 where
  | nan
  | infinite (negative : Bool)
  | finite (negative : Bool) (significand : Nat) (exponent : Int)
  deriving Repr, DecidableEq, Inhabited

namespace Binary64

/-- The least significand of a number with a greater exponent than the least. -/
def hiddenBit : Nat := 4503599627370496

/-- The least exponent. -/
def minExponent : Int := -1074

/-- The greatest exponent. -/
def maxExponent : Int := 971

/-- The exponent of the greatest power of two that is not above a positive fraction. -/
def floorLog2 (f : Fraction) : Int :=
  let estimate : Int := (Nat.log2 f.num : Int) - (Nat.log2 f.den : Int)
  if ((⟨1, 1⟩ : Fraction).scale 2 estimate).le f then estimate else estimate - 1

/-- The number nearest to a positive fraction. -/
def ofFraction (negative : Bool) (f : Fraction) : Binary64 :=
  let exponent := max (floorLog2 f - 52) minExponent
  let significand := (f.scale 2 (-exponent)).roundEven
  let (significand, exponent) :=
    if significand = 2 * hiddenBit then (hiddenBit, exponent + 1) else (significand, exponent)
  if maxExponent < exponent then .infinite negative else .finite negative significand exponent

/-- The number nearest to a decimal.  No digits need looking at when the decimal is far outside of
the format's range. -/
def ofDecimal (negative : Bool) (d : Decimal) : Binary64 :=
  if d.digits = 0 ∨ d.magnitude < -330 then .finite negative 0 minExponent
  else if 330 < d.magnitude then .infinite negative
  else ofFraction negative d.toFraction

end Binary64

end GoResolver
