import UnitCalc.Binary64.Basic
import UnitCalc.Text.Numeral

/-!
# Decimals and their written forms

A `Decimal` is a sign, a whole coefficient and a power of ten. `Decimal.write` lays its digits out
according to a `Notation`, which holds every choice that differs between one style of number text
and another; `Decimal.read?` reads a decimal in either layout, and `Decimal.toBinary64` is the
binary64 number nearest to it.
-/

namespace UnitCalc

/-- The number `coefficient * 10 ^ exponent`, with a sign. -/
structure Decimal where
  negative : Bool
  coefficient : Nat
  exponent : Int
  deriving DecidableEq

namespace Decimal

/-! ## Value -/

/-- The rank nearest to `coefficient * 10 ^ exponent`. -/
def nearestRank (coefficient : Nat) (exponent : Int) : Nat :=
  Binary64.nearestRank (Binary64.unit * (coefficient * 10 ^ exponent.toNat))
    (10 ^ (-exponent).toNat)

/-- The binary64 number nearest to a decimal. -/
def toBinary64 (d : Decimal) : Binary64 :=
  Binary64.ofRank d.negative (nearestRank d.coefficient d.exponent)

/-- The decimal exponent of the positive number `num / den`: the `x` with
`10 ^ x ≤ num / den < 10 ^ (x + 1)`. Numbers below `10 ^ -400` are out of scope. -/
def order (num den : Nat) : Int :=
  ((Nat.toDigits 10 (10 ^ 400 * num / den)).length : Int) - 401

/-- The ratio `num / den` counted in units of `10 ^ exponent`, again as a ratio. -/
def inUnits (num den : Nat) (exponent : Int) : Nat × Nat :=
  (num * 10 ^ (-exponent).toNat, den * 10 ^ exponent.toNat)

/-! ## Written forms -/

/-- The choices that make a style of number text. -/
structure Notation where
  /-- The least decimal exponent written without an `e`. -/
  leastPositional : Int
  /-- The first decimal exponent above it written with an `e`. -/
  firstScientific : Int
  /-- Whether a whole number without an `e` keeps the digit after its point. -/
  keepsPoint : Bool

/-- The significant digits: those of the coefficient without its final zeros. -/
def digits (d : Decimal) : List Char :=
  match ((Nat.toDigits 10 d.coefficient).reverse.dropWhile (· == '0')).reverse with
  | [] => ['0']
  | ds => ds

/-- The decimal exponent of the first digit. -/
def leadingExponent (d : Decimal) : Int :=
  if d.coefficient = 0 then 0
  else (Nat.toDigits 10 d.coefficient).length - 1 + d.exponent

/-- Digits laid out around the point, the first of them standing for `10 ^ exponent`. -/
def positional (keepsPoint : Bool) (digits : List Char) (exponent : Int) : List Char :=
  if exponent < 0 then
    ['0', '.'] ++ List.replicate (-exponent - 1).toNat '0' ++ digits
  else
    let whole := (exponent + 1).toNat
    if digits.length ≤ whole then
      digits ++ List.replicate (whole - digits.length) '0'
        ++ (if keepsPoint then ['.', '0'] else [])
    else digits.take whole ++ '.' :: digits.drop whole

/-- Digits with the point after the first of them and an exponent of at least two digits. -/
def scientific (digits : List Char) (exponent : Int) : List Char :=
  let size := Nat.toDigits 10 exponent.natAbs
  let fraction := digits.drop 1
  digits.take 1 ++ (if fraction = [] then [] else '.' :: fraction)
    ++ ['e', if exponent < 0 then '-' else '+']
    ++ List.replicate (2 - size.length) '0' ++ size

/-- The text of a decimal in a notation. -/
def write (style : Notation) (d : Decimal) : String :=
  let x := d.leadingExponent
  let body :=
    if style.leastPositional ≤ x ∧ x < style.firstScientific then
      positional style.keepsPoint d.digits x
    else scientific d.digits x
  String.ofList (if d.negative then '-' :: body else body)

/-! ## Reading -/

/-- Reads an optional sign, digits with an optional point among them, and an optional exponent. -/
def read? (cs : List Char) : Option Decimal := do
  let (negative, body) := Text.takeSign cs
  let notMark : Char → Bool := fun c ↦ c != 'e' && c != 'E'
  let mantissa := body.takeWhile notMark
  let whole := mantissa.takeWhile (· != '.')
  let fraction := (mantissa.dropWhile (· != '.')).drop 1
  let coefficient ← Text.readDigits? (whole ++ fraction)
  let exponent : Int ← match body.dropWhile notMark with
    | [] => some 0
    | _ :: mark => do
      let (falling, size) := Text.takeSign mark
      let n ← Text.readDigits? size
      some (if falling then -(n : Int) else n)
  some ⟨negative, coefficient, exponent - fraction.length⟩

/-- As `toBinary64`, with decimals far outside the range of binary64 decided by their size alone. -/
def rounded (d : Decimal) : Binary64 :=
  if d.coefficient = 0 then .zero d.negative
  else if d.leadingExponent > 400 then .infinite d.negative
  else if d.leadingExponent < -400 then .zero d.negative
  else d.toBinary64

end Decimal

/-- Reads the name of a number that has no digits, in letters of either case. -/
def Binary64.readName? (cs : List Char) : Option Binary64 :=
  let (negative, name) := Text.takeSign cs
  match String.ofList (name.map Char.toLower) with
  | "inf" | "infinity" => some (.infinite negative)
  | "nan" => some .nan
  | _ => none

/-- Reads a number: optional blanks on both sides, and a name or a decimal with digits of any script
and single underscores among them. -/
def Binary64.read? (text : String) : Option Binary64 := do
  let cs ← Text.dropUnderscores? false (Text.numeral text)
  readName? cs <|> (Decimal.read? cs).map Decimal.rounded

end UnitCalc
