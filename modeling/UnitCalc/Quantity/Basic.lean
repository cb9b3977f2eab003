import UnitCalc.Decimal.Shortest
import UnitCalc.Dimension
import UnitCalc.Limit

/-!
# Quantities

A quantity is a binary64 magnitude with a physical dimension.
-/

namespace UnitCalc

/-- A magnitude in SI base units together with its dimension. -/
structure Quantity where
  magnitude : Binary64
  dimension : Dimension
  deriving DecidableEq

namespace Quantity

/-- A plain number as a quantity. -/
def ofNumber (x : Binary64) : Quantity := ⟨x, .dimensionless⟩

/-- One base unit. -/
def ofBaseUnit (b : BaseUnit) : Quantity := ⟨.one false, .ofBaseUnit b⟩

def isDimensionless (q : Quantity) : Bool := q.dimension.isDimensionless

/-- Equal dimensions and equal magnitudes, the magnitudes compared as numbers. -/
def sameQuantity (p q : Quantity) : Bool :=
  p.magnitude.sameNumber q.magnitude && p.dimension == q.dimension

/-- The shortest text of the magnitude, followed by the dimension unless there is none. -/
def text (q : Quantity) : String :=
  if q.isDimensionless then q.magnitude.shortestText
  else q.magnitude.shortestText ++ " " ++ q.dimension.text

/-- Whether the text stays within the limits of written numbers. -/
def isWritable (q : Quantity) : Bool := q.dimension.isWritable

/-- The text, if it may be written. -/
def text? (q : Quantity) : Except Limit String :=
  if q.isWritable then .ok q.text else .error .tooManyDigits

end Quantity

end UnitCalc
