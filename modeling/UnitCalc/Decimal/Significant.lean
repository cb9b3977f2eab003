import UnitCalc.Decimal.Basic

/-!
# A given number of significant digits

`Binary64.significantText n x` writes `x` rounded to `n` significant digits, a half going to the
even digit, without final zeros. The exact value is rounded, so any number of digits is meaningful.
-/

namespace UnitCalc

namespace Binary64

/-- The decimal of `count` digits nearest to the number of the given sign and rank. -/
def significant (count : Nat) (negative : Bool) (rank : Nat) : Decimal :=
  if rank = 0 then ⟨negative, 0, 0⟩
  else
    let exponent := Decimal.order (quanta rank) unit - count + 1
    let ratio := Decimal.inUnits (quanta rank) unit exponent
    ⟨negative, roundDiv ratio.1 ratio.2, exponent⟩

/-- No finite number has this many significant digits, so rounding to more changes nothing. -/
def exactDigits : Nat := 800

/-- Texts of `count` significant digits are positional for decimal exponents from `-4` up to, but
not including, `count`. -/
def significantNotation (count : Nat) : Decimal.Notation := ⟨-4, count, false⟩

/-- A number with `count` significant digits, at least one. -/
def significantText (count : Nat) : Binary64 → String
  | nan => "nan"
  | infinite s => if s then "-inf" else "inf"
  | finite s a =>
    (significant (min (max count 1) exactDigits) s a).write (significantNotation (max count 1))

end Binary64

end UnitCalc
