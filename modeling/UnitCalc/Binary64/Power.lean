import UnitCalc.Binary64.Platform

/-!
# Powers

`Binary64.realPower x y` is `x ^ y`. Exponents of zero, numbers that are not finite, a base of zero
and bases of one and minus one are decided here, and so is the sign of the power of a negative base;
all other powers are those of the platform. A zero base has no negative power, and a finite base
with an infinite power is an overflow.

`Binary64.power x n` is the power with a whole exponent, which is first rounded to a binary64
number; an exponent that is too large for that counts as an overflow.
-/

namespace UnitCalc

namespace Binary64

/-- Why a power has no finite value. -/
inductive PowerError where
  | zeroBase
  | overflow
  deriving DecidableEq

/-- A whole number that two does not divide. -/
def isOdd (x : Binary64) : Bool := x.isIntegral && x.truncate % 2 == 1

/-- The power of a number with an infinite exponent. -/
def infinitePower (negative : Bool) : Binary64 → Binary64
  | nan => nan
  | infinite _ => if negative then zero false else infinite false
  | finite _ a =>
    if a.val = oneRank then one false
    else if (decide (a.val < oneRank)) = negative then infinite false
    else zero false

variable [Platform]

/-- The power of a finite number other than zero with an exponent of the same kind. -/
def finitePower (s : Bool) (a : Fin rankBound) (y : Binary64) : Except PowerError Binary64 :=
  if a.val = oneRank then .ok (one s)
  else match Platform.pow (finite false a) y with
    | infinite _ => .error .overflow
    | z => .ok (if s then -z else z)

/-- The power `x ^ y`. Where it would be a complex number, for a negative base with a fractional
exponent, it is the absolute value of that number. -/
def realPower (x y : Binary64) : Except PowerError Binary64 :=
  match x, y with
  | x, finite t b =>
    if b.val = 0 then .ok (one false)
    else match x with
      | nan => .ok nan
      | infinite s => .ok (if t then zero (s && y.isOdd) else infinite (s && y.isOdd))
      | finite s a =>
        if a.val = 0 then if t then .error .zeroBase else .ok (zero (s && y.isOdd))
        else finitePower (s && y.isOdd) a y
  | x, infinite t => .ok (infinitePower t x)
  | x, nan => .ok (if x = one false then one false else nan)

/-- The power `x ^ n`. -/
def power (x : Binary64) (n : Int) : Except PowerError Binary64 :=
  match ofInt? n with
  | none => .error .overflow
  | some y => x.realPower y

/-! ## Small facts -/

section

variable {s t : Bool} {a b : Fin rankBound}

theorem realPower_zero_right (x : Binary64) (hb : b.val = 0) :
    x.realPower (finite t b) = .ok (one false) := if_pos hb

theorem realPower_zero_left (ha : a.val = 0) (hb : b.val ≠ 0) :
    (finite s a).realPower (finite t b) =
      if t then .error .zeroBase else .ok (zero (s && isOdd (finite t b))) := by
  simp only [realPower, if_neg hb, if_pos ha]

theorem realPower_finite (ha : a.val ≠ 0) (hb : b.val ≠ 0) :
    (finite s a).realPower (finite t b) =
      finitePower (s && isOdd (finite t b)) a (finite t b) := by
  simp only [realPower, if_neg hb, if_neg ha]

/-- One is its own power. -/
theorem realPower_one_left (t : Bool) (b : Fin rankBound) :
    (one false).realPower (finite t b) = .ok (one false) := by
  by_cases hb : b.val = 0
  · exact realPower_zero_right _ hb
  · rw [one, realPower_finite (by decide) hb, Bool.false_and, finitePower, if_pos rfl, one]

end

end Binary64

end UnitCalc
