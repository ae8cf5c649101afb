/-!
# Numbers in text

Only the ASCII digits count as digits here.  `value` reads a run of digits in a base, most
significant first; `natural?` reads a non-empty run of decimal digits; `word32?` reads the decimal
form of a number of 32 bits, which may carry a plus sign and leading zeros.
-/

namespace GoResolver.Text

/-- The value of a digit or letter as a digit of a base up to 36. -/
def digit? (c : Char) : Option Nat :=
  if '0' ≤ c ∧ c ≤ '9' then some (c.toNat - '0'.toNat)
  else if 'a' ≤ c ∧ c ≤ 'z' then some (c.toNat - 'a'.toNat + 10)
  else if 'A' ≤ c ∧ c ≤ 'Z' then some (c.toNat - 'A'.toNat + 10)
  else none

/-- Whether a character is a digit of the base. -/
def isDigitOf (base : Nat) (c : Char) : Bool :=
  match digit? c with
  | some d => d < base
  | none => false

/-- The ASCII decimal digits. -/
def isDigit (c : Char) : Bool := '0' ≤ c && c ≤ '9'

/-- The number that a run of digits denotes, after the digits of `acc`. -/
def valueFrom (base acc : Nat) (s : List Char) : Nat :=
  s.foldl (fun n c => n * base + (digit? c).getD 0) acc

/-- The number that a run of digits of the base denotes. -/
def value (base : Nat) (s : List Char) : Nat := valueFrom base 0 s

/-- Reads a non-empty run of decimal digits. -/
def natural? (s : List Char) : Option Nat :=
  if s ≠ [] ∧ s.all isDigit then some (value 10 s) else none

/-- The text without one plus sign in front. -/
def dropPlus : List Char → List Char
  | '+' :: s => s
  | s => s

/-- The first number that does not fit into 32 bits. -/
def word32Limit : Nat := 4294967296

/-- The first number that does not fit into 64 bits. -/
def word64Limit : Nat := 18446744073709551616

/-- The first number that does not fit into 64 bits with a sign. -/
def int64Limit : Nat := 9223372036854775808

/-- Reads a number of 32 bits in decimal, with an optional plus sign. -/
def word32? (s : List Char) : Option Nat :=
  (natural? (dropPlus s)).filter (· < word32Limit)

/-- The digits of a number in a base up to 16, in lower case. -/
def digits (base n : Nat) : List Char := Nat.toDigits base n

/-- The digits of a number, with zeros in front up to a width. -/
def paddedDigits (base width n : Nat) : List Char :=
  List.replicate (width - (digits base n).length) '0' ++ digits base n

end GoResolver.Text
