import UnitCalc.UnitTable.Basic

/-!
# The standard units

The derived units that every calculation knows, besides the base units.
-/

namespace UnitCalc

namespace UnitTable

/-- The number nearest to `coefficient * 10 ^ exponent`. -/
private def number (coefficient : Nat) (exponent : Int) : Binary64 :=
  Decimal.toBinary64 ⟨false, coefficient, exponent⟩

/-- The derived units, in order. -/
def standardDefinitions : List UnitDefinition :=
  [ ⟨"N", "newton", .one false, [("kg", 1), ("m", 1), ("s", -2)]⟩,
    ⟨"Pa", "pascal", .one false, [("N", 1), ("m", -2)]⟩,
    ⟨"J", "joule", .one false, [("N", 1), ("m", 1)]⟩,
    ⟨"W", "watt", .one false, [("J", 1), ("s", -1)]⟩,
    ⟨"kW", "kilowatt", number 1 3, [("W", 1)]⟩,
    ⟨"MW", "megawatt", number 1 3, [("kW", 1)]⟩,
    ⟨"km", "kilometer", number 1 3, [("m", 1)]⟩,
    ⟨"cm", "centimeter", number 1 (-2), [("m", 1)]⟩,
    ⟨"mm", "millimeter", number 1 (-3), [("m", 1)]⟩,
    ⟨"mL", "milliliter", .one false, [("cm", 3)]⟩,
    ⟨"L", "liter", number 1 3, [("mL", 1)]⟩,
    ⟨"ms", "millisecond", number 1 (-3), [("s", 1)]⟩,
    ⟨"us", "microsecond", number 1 (-6), [("s", 1)]⟩,
    ⟨"hr", "hour", number 3600 0, [("s", 1)]⟩,
    ⟨"day", "day", number 24 0, [("hr", 1)]⟩,
    ⟨"yr", "Julian year", number 36525 (-2), [("day", 1)]⟩,
    ⟨"ft", "foot", number 3048 (-4), [("m", 1)]⟩,
    ⟨"lbf", "pound-force", number 45359237 (-8) * number 980665 (-5),
      [("kg", 1), ("m", 1), ("s", -2)]⟩,
    ⟨"in", "inch", .one false / number 12 0, [("ft", 1)]⟩,
    ⟨"thou", "thousandth of an inch", number 1 (-3), [("in", 1)]⟩,
    ⟨"mile", "statute mile", number 5280 0, [("ft", 1)]⟩,
    ⟨"mph", "miles per hour", .one false, [("mile", 1), ("hr", -1)]⟩ ]

/-- The base units and the standard derived units. These definitions make a table on every platform
(`ofDefinitions_standard`). -/
def standard [Platform] : UnitTable :=
  match ofDefinitions standardDefinitions with
  | .ok table => table
  | .error _ => base

end UnitTable

end UnitCalc
