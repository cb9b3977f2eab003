import UnitCalc.Decimal.Significant
import UnitCalc.Quantity.Basic
import UnitCalc.Settings

/-!
# Formatted quantities

A formatted quantity is its magnitude followed by the factors of its dimension, such as
`2 m1 s-2 kg1`. The magnitude has either a given number of significant digits or the shortest text
that reads back, where whole numbers below `10 ^ 16` stand without a point.
-/

namespace UnitCalc

namespace Binary64

/-- The shortest text of a number, whole numbers below `10 ^ 16` without a point. -/
def plainText (x : Binary64) : String :=
  if x.isIntegral ∧ x.truncate.natAbs < 10 ^ 16 then toString x.truncate else x.shortestText

/-- A number with as many significant digits as `precision` says, or in its plain text. -/
def format (precision : Option Int) (x : Binary64) : Except Limit String :=
  match precision with
  | none => .ok x.plainText
  | some n =>
    match Limit.ofPrecision? n with
    | some limit => .error limit
    | none => .ok (x.significantText n.toNat)

end Binary64

namespace Quantity

/-- Parts with another one for a power, unless its exponent is zero. -/
def addPart (parts : List String) : String × Int → List String
  | (symbol, power) => if power = 0 then parts else parts ++ [symbol ++ toString power]

/-- What a quantity is printed as: its magnitude, and a part for each exponent other than zero. -/
def parts (magnitude : String) (q : Quantity) : List String :=
  q.dimension.powers.foldl addPart [magnitude]

/-- A quantity with as many significant digits as `precision` says. -/
def format (precision : Option Int) (q : Quantity) : Except Limit String := do
  let magnitude ← q.magnitude.format precision
  if q.dimension.isWritable then return " ".intercalate (q.parts magnitude)
  else throw .tooManyDigits

/-- The parts behind the magnitude are the factors of the dimension. -/
theorem parts_eq (magnitude : String) (q : Quantity) :
    q.parts magnitude = magnitude :: q.dimension.factors := by
  have hfold (powers : List (String × Int)) (parts : List String) :
      powers.foldl addPart parts = parts ++ powers.filterMap fun (symbol, power) ↦
        if power = 0 then none else some (symbol ++ toString power) := by
    induction powers generalizing parts with
    | nil => simp
    | cons entry powers ih =>
      rw [List.foldl_cons, ih, addPart, List.filterMap_cons]
      by_cases h : entry.2 = 0 <;> simp [h]
  rw [parts, hfold, ← Dimension.factors_eq_filterMap, List.singleton_append]

/-- A quantity with the given precision, or that of the settings if none is given. -/
def formatWith (settings : Settings) (precision : Option Int) (q : Quantity) :
    Except Limit String :=
  q.format (precision <|> settings.precision)

end Quantity

end UnitCalc
