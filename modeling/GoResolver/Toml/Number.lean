import GoResolver.Toml.Value

/-!
# Numbers

Digits may have single underscores between them.  A whole number in decimal has no zero in front and
may have a sign; in another base it has the base's letter after a zero, and no sign.  A number with
a fraction or an exponent, and `inf` and `nan`, are floating-point numbers.

Whole numbers have 64 bits, and one that does not fit is no number.  Neither is a decimal too great
for a floating-point number, except below zero, where it is the negative infinity.
-/

namespace GoResolver.Toml

/-! ## 1. Digits -/

/-- Reads the digits after a first one, with single underscores between digits. -/
def moreDigits? (base : Nat) : List Char → Option (List Char × List Char)
  | '_' :: c :: s =>
    if Text.isDigitOf base c then (moreDigits? base s).map fun p => (c :: p.1, p.2) else none
  | c :: s =>
    if Text.isDigitOf base c then (moreDigits? base s).map fun p => (c :: p.1, p.2)
    else if c = '_' then none
    else some ([], c :: s)
  | [] => some ([], [])

/-- Reads digits of a base; there must be one. -/
def digits? (base : Nat) : List Char → Option (List Char × List Char)
  | c :: s =>
    if Text.isDigitOf base c then (moreDigits? base s).map fun p => (c :: p.1, p.2) else none
  | [] => none

/-- Reads the digits before a point: a zero, or digits without a zero in front. -/
def wholeDigits? : List Char → Option (List Char × List Char)
  | '0' :: s => some (['0'], s)
  | s => digits? 10 s

/-- Reads a fraction, if there is one. -/
def fraction? : List Char → Option (Option (List Char) × List Char)
  | '.' :: s => (digits? 10 s).map fun p => (some p.1, p.2)
  | s => some (none, s)

/-- Reads a sign, if there is one; whether it is a minus. -/
def signed : List Char → Option Bool × List Char
  | '+' :: s => (some false, s)
  | '-' :: s => (some true, s)
  | s => (none, s)

/-- Reads an exponent, if there is one. -/
def exponent? : List Char → Option (Option Int × List Char)
  | c :: s =>
    if c = 'e' ∨ c = 'E' then
      (digits? 10 (signed s).2).map fun p =>
        let n : Int := Text.value 10 p.1
        (some (if (signed s).1 = some true then -n else n), p.2)
    else some (none, c :: s)
  | [] => some (none, [])

/-! ## 2. Values -/

/-- A whole number of 64 bits. -/
def integer? (negative : Bool) (n : Nat) : Option Value :=
  if negative then if n ≤ Text.int64Limit then some (.integer (-n)) else none
  else if n < Text.int64Limit then some (.integer n) else none

/-- A floating-point number. -/
def float? (negative : Bool) (whole fraction : List Char) (exponent : Int) : Option Value :=
  let d : Decimal := ⟨Text.value 10 (whole ++ fraction), exponent - fraction.length⟩
  match Binary64.ofDecimal negative d with
  | .infinite false => none
  | x => some (.float x)

/-- Reads a decimal number after its sign. -/
def decimal? (negative : Bool) (s : List Char) : Option (Value × List Char) := do
  let (whole, s) ← wholeDigits? s
  let (fraction, s) ← fraction? s
  let (exponent, s) ← exponent? s
  let v ← match fraction, exponent with
    | none, none => integer? negative (Text.value 10 whole)
    | _, _ => float? negative whole (fraction.getD []) (exponent.getD 0)
  some (v, s)

/-- Reads a whole number of a base after its letter. -/
def ofBase? (base : Nat) (s : List Char) : Option (Value × List Char) := do
  let (ds, s) ← digits? base s
  let v ← integer? false (Text.value base ds)
  some (v, s)

/-- Reads a number. -/
def number? (s : List Char) : Option (Value × List Char) :=
  match signed s with
  | (none, '0' :: 'x' :: r) => ofBase? 16 r
  | (none, '0' :: 'o' :: r) => ofBase? 8 r
  | (none, '0' :: 'b' :: r) => ofBase? 2 r
  | (sign, 'i' :: 'n' :: 'f' :: r) => some (.float (.infinite (sign.getD false)), r)
  | (_, 'n' :: 'a' :: 'n' :: r) => some (.float .nan, r)
  | (sign, r) => decimal? (sign.getD false) r

end GoResolver.Toml
