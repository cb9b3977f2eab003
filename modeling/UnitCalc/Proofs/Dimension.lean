import Mathlib.Data.List.Nodup
import UnitCalc.Proofs.Binary64.Rounded
import UnitCalc.Proofs.Except
import UnitCalc.Quantity.Arithmetic

/-!
# The algebra of dimensions

Dimensions are a free module over the whole numbers, written with products and powers: the base
units are a basis, and `Dimension.exponent` gives the coordinates. Every law is checked exponent by
exponent, where it is a law of the whole numbers.

Operations on quantities respect this structure. The dimension of a quotient is the quotient of the
dimensions although division multiplies by an inverse and never divides dimensions, because
`Dimension.div_eq_mul_pow` relates the two.
-/

namespace UnitCalc

namespace Dimension

variable (d e f : Dimension) (a b : Int)

/-! ## Products -/

theorem mul_assoc : d * e * f = d * (e * f) := by
  ext u
  simp only [exponent_mul, Int.add_assoc]

theorem mul_comm : d * e = e * d := by
  ext u
  simp only [exponent_mul, Int.add_comm]

theorem mul_dimensionless : d * dimensionless = d := by
  ext u
  rw [exponent_mul, exponent_dimensionless, Int.add_zero]

/-! ## Powers -/

theorem pow_zero : d ^ (0 : Int) = dimensionless := by
  ext u
  rw [exponent_pow, exponent_dimensionless, Int.mul_zero]

theorem pow_one : d ^ (1 : Int) = d := by
  ext u
  rw [exponent_pow, Int.mul_one]

theorem pow_add : d ^ (a + b) = d ^ a * d ^ b := by
  ext u
  simp only [exponent_mul, exponent_pow, Int.mul_add]

theorem pow_mul : (d ^ a) ^ b = d ^ (a * b) := by
  ext u
  simp only [exponent_pow, Int.mul_assoc]

theorem mul_pow : (d * e) ^ a = d ^ a * e ^ a := by
  ext u
  simp only [exponent_mul, exponent_pow, Int.add_mul]

/-! ## The basis -/

/-- The product of powers of all base units. -/
def ofPowers (exponents : BaseUnit → Int) : Dimension :=
  (BaseUnit.all.map fun u ↦ ofBaseUnit u ^ exponents u).foldr (· * ·) dimensionless

theorem exponent_ofPowers (exponents : BaseUnit → Int) (u : BaseUnit) :
    (ofPowers exponents).exponent u = exponents u := by
  cases u <;> simp [ofPowers, BaseUnit.all, ofBaseUnit]

/-- A dimension is a product of powers of the base units in one way only. -/
theorem ofPowers_eq_iff (exponents : BaseUnit → Int) :
    ofPowers exponents = d ↔ exponents = d.exponent := by
  constructor
  · rintro rfl
    exact funext fun u ↦ (exponent_ofPowers exponents u).symm
  · rintro rfl
    ext u
    exact exponent_ofPowers d.exponent u

end Dimension

/-! ## Operations on quantities -/

namespace Quantity

variable {p q r : Quantity}

theorem dimension_of_neg (h : q.neg = .ok r) : r.dimension = q.dimension :=
  dimension_of_scale h

theorem dimension_of_sub (h : p.sub q = .ok r) :
    p.dimension = q.dimension ∧ r.dimension = p.dimension := by
  obtain ⟨q', hq', h⟩ := bind_eq_ok_iff.mp h
  rw [← dimension_of_neg hq']
  exact dimension_of_add h

section

variable [Platform]

theorem dimension_of_inverse (h : q.inverse = .ok r) : r.dimension = q.dimension ^ (-1 : Int) :=
  dimension_of_pow h

/-- Division multiplies by the inverse, but the dimensions are divided. -/
theorem dimension_of_div (h : p.div q = .ok r) : r.dimension = p.dimension / q.dimension := by
  obtain ⟨q', hq', h⟩ := bind_eq_ok_iff.mp h
  rw [dimension_of_mul h, dimension_of_inverse hq', Dimension.div_eq_mul_pow]

/-- Dimensions are a free module over the whole numbers, of which the base units are a basis, and
operations on quantities that succeed respect it. -/
theorem dimension_laws :
    (∀ (d e f : Dimension) (a b : Int),
      d * e * f = d * (e * f) ∧ d * e = e * d ∧ d * .dimensionless = d ∧
      d / e = d * e ^ (-1 : Int) ∧ d ^ (0 : Int) = .dimensionless ∧ d ^ (1 : Int) = d ∧
      d ^ (a + b) = d ^ a * d ^ b ∧ (d ^ a) ^ b = d ^ (a * b) ∧ (d * e) ^ a = d ^ a * e ^ a) ∧
    (∀ (d : Dimension) (exponents : BaseUnit → Int),
      Dimension.ofPowers exponents = d ↔ exponents = d.exponent) ∧
    ∀ (x y r : Quantity) (n : Int),
      (x.mul y = .ok r → r.dimension = x.dimension * y.dimension) ∧
      (x.div y = .ok r → r.dimension = x.dimension / y.dimension) ∧
      (x.pow n = .ok r → r.dimension = x.dimension ^ n) ∧
      (x.inverse = .ok r → r.dimension = x.dimension ^ (-1 : Int)) ∧
      (x.neg = .ok r → r.dimension = x.dimension) ∧
      (x.add y = .ok r → x.dimension = y.dimension ∧ r.dimension = x.dimension) ∧
      (x.sub y = .ok r → x.dimension = y.dimension ∧ r.dimension = x.dimension) := by
  refine ⟨fun d e f a b ↦ ?_, Dimension.ofPowers_eq_iff, fun x y r n ↦ ?_⟩
  · exact ⟨d.mul_assoc e f, d.mul_comm e, d.mul_dimensionless, d.div_eq_mul_pow e, d.pow_zero,
      d.pow_one, d.pow_add a b, d.pow_mul a b, d.mul_pow e a⟩
  · exact ⟨dimension_of_mul, dimension_of_div, dimension_of_pow, dimension_of_inverse,
      dimension_of_neg, dimension_of_add, dimension_of_sub⟩

end

open Rounded in
/-- A force over an area, the square of this pressure, and an hour less a second. -/
theorem dimension_laws_pressure :
    let newton : Quantity := ⟨.ofRatio 6 1, { meter := 1, second := -2, kilogram := 1 }⟩
    let area : Quantity := ⟨.ofRatio 2 1, { meter := 2 }⟩
    let pressure : Quantity := ⟨.ofRatio 3 1, { meter := -1, second := -2, kilogram := 1 }⟩
    let square : Quantity := ⟨.ofRatio 9 1, { meter := -2, second := -4, kilogram := 2 }⟩
    let hour : Quantity := ⟨.ofRatio 3600 1, { second := 1 }⟩
    let rest : Quantity := ⟨.ofRatio 3599 1, { second := 1 }⟩
    (newton.div area = .ok pressure ∧ pressure.dimension = newton.dimension / area.dimension) ∧
      (pressure.pow 2 = .ok square ∧ square.dimension = pressure.dimension ^ (2 : Int)) ∧
      hour.sub (.ofBaseUnit .second) = .ok rest ∧ rest.dimension = hour.dimension := by
  intro newton area pressure square hour rest
  have hdiv : newton.div area = .ok pressure := by decide +kernel
  have hpow : pressure.pow 2 = .ok square := by decide +kernel
  have hsub : hour.sub (.ofBaseUnit .second) = .ok rest := by decide +kernel
  exact ⟨⟨hdiv, (dimension_laws.2.2 newton area pressure 0).2.1 hdiv⟩,
    ⟨hpow, (dimension_laws.2.2 pressure area square 2).2.2.1 hpow⟩,
    hsub, ((dimension_laws.2.2 hour _ rest 0).2.2.2.2.2.2 hsub).2⟩

end Quantity

end UnitCalc
