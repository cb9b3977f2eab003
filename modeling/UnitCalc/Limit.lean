import UnitCalc.Text.Numeral

/-!
# Limits

Whole numbers are unbounded, but turning one into a binary64 number, writing one out, or using one
as a number of digits has limits. Running into one is not a mistake in an expression, so it belongs
to no stage of the calculation and is not reported as a failed expression.
-/

namespace UnitCalc

/-- A limit that a calculation or an output ran into. -/
inductive Limit where
  /-- A whole number rounds to no finite binary64 number. -/
  | integerTooLarge
  /-- A whole number has too many digits to be written. -/
  | tooManyDigits
  /-- The number of significant digits is negative. -/
  | negativePrecision
  /-- The number of significant digits exceeds `2 ^ 31 - 1`. -/
  | precisionTooLarge
  /-- The number of significant digits exceeds `2 ^ 63 - 1`. -/
  | precisionOutOfRange
  deriving DecidableEq

namespace Limit

def message : Limit → String
  | integerTooLarge => "int too large to convert to float"
  | tooManyDigits => "Exceeds the limit (4300 digits) for integer string conversion; "
      ++ "use sys.set_int_max_str_digits() to increase the limit"
  | negativePrecision => "Format specifier missing precision"
  | precisionTooLarge => "precision too big"
  | precisionOutOfRange => "Too many decimal digits in format string"

/-- The limit that a number of significant digits exceeds. The number is written out before it is
used. -/
def ofPrecision? (n : Int) : Option Limit :=
  if 0 ≤ n ∧ n < 2 ^ 31 then none
  else if Text.isWritable n = false then some tooManyDigits
  else if n < 0 then some negativePrecision
  else if n < 2 ^ 63 then some precisionTooLarge
  else some precisionOutOfRange

theorem ofPrecision?_eq_none_iff {n : Int} : ofPrecision? n = none ↔ 0 ≤ n ∧ n < 2 ^ 31 := by
  unfold ofPrecision?
  by_cases hn : 0 ≤ n ∧ n < 2 ^ 31
  · rw [if_pos hn]
    exact iff_of_true rfl hn
  · rw [if_neg hn]
    refine iff_of_false ?_ hn
    repeat' split
    all_goals simp

end Limit

end UnitCalc
