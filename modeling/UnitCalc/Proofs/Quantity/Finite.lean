import UnitCalc.Proofs.Binary64.Finite
import UnitCalc.Proofs.Except
import UnitCalc.Quantity.Arithmetic

/-!
# Finite quantities

Every operation on quantities checks only that its result is not infinite. On finite magnitudes that
is enough: what an operation returns for them is finite again.
-/

namespace UnitCalc

namespace Quantity

variable {p q r : Quantity} {x : Binary64} {d : Dimension} {error : EvaluateError} {n : Int}

/-- The magnitude is neither infinite nor NaN. -/
def IsFinite (q : Quantity) : Prop := q.magnitude.isFinite = true

theorem bounded_eq_ok_iff :
    bounded error x d = .ok q ↔ x.isInfinite = false ∧ q = ⟨x, d⟩ := by
  rw [bounded]
  cases x.isInfinite with
  | false => simp [eq_comm]
  | true => simp

theorem pow_eq_ok_iff [Platform] :
    q.pow n = .ok r ↔ ∃ x, q.magnitude.power n = .ok x ∧ r = ⟨x, q.dimension ^ n⟩ := by
  unfold pow
  cases q.magnitude.power n with
  | ok x => simp [eq_comm]
  | error cause => cases cause <;> simp

/-- A negation changes the sign of a magnitude that is not infinite. -/
theorem neg_eq (hq : q.magnitude.isInfinite = false) :
    q.neg = .ok ⟨-q.magnitude, q.dimension⟩ := by
  have hmul : q.magnitude * .one true = -q.magnitude := Binary64.mul_one_eq _ true
  have hneg : (-q.magnitude).isInfinite = false := by
    rw [← hq]
    cases q.magnitude <;> rfl
  rw [neg, scale, hmul]
  exact bounded_eq_ok_iff.mpr ⟨hneg, rfl⟩

theorem isFinite_ofNumber (hx : x.isFinite = true) : (ofNumber x).IsFinite := hx

theorem IsFinite.isInfinite_eq_false (hq : q.IsFinite) : q.magnitude.isInfinite = false :=
  (Binary64.isFinite_iff.mp hq).1

theorem isFinite_ofBaseUnit (b : BaseUnit) : (ofBaseUnit b).IsFinite := Binary64.isFinite_one _

theorem IsFinite.scale (hq : q.IsFinite) (hx : x.isFinite = true) (h : q.scale x = .ok r) :
    r.IsFinite := by
  obtain ⟨hinfinite, rfl⟩ := bounded_eq_ok_iff.mp h
  exact Binary64.isFinite_mul hq hx hinfinite

theorem IsFinite.neg (hq : q.IsFinite) (h : q.neg = .ok r) : r.IsFinite :=
  hq.scale (Binary64.isFinite_one _) h

theorem IsFinite.scaleInt (hq : q.IsFinite) (h : q.scaleInt n = .ok r) : r.IsFinite := by
  rw [Quantity.scaleInt_eq] at h
  split at h
  · next x hx => exact hq.scale (Binary64.isFinite_of_ofInt? hx) h
  · cases h

theorem IsFinite.mul (hp : p.IsFinite) (hq : q.IsFinite) (h : p.mul q = .ok r) : r.IsFinite := by
  obtain ⟨hinfinite, rfl⟩ := bounded_eq_ok_iff.mp h
  exact Binary64.isFinite_mul hp hq hinfinite

theorem IsFinite.pow [Platform] (hq : q.IsFinite) (h : q.pow n = .ok r) : r.IsFinite := by
  obtain ⟨x, hx, rfl⟩ := pow_eq_ok_iff.mp h
  exact Binary64.isFinite_of_power hq hx

theorem IsFinite.inverse [Platform] (hq : q.IsFinite) (h : q.inverse = .ok r) : r.IsFinite :=
  hq.pow (n := -1) h

theorem IsFinite.add (hp : p.IsFinite) (hq : q.IsFinite) (h : p.add q = .ok r) : r.IsFinite := by
  rw [Quantity.add] at h
  split at h
  · obtain ⟨hinfinite, rfl⟩ := bounded_eq_ok_iff.mp h
    exact Binary64.isFinite_add hp hq hinfinite
  · cases h

theorem IsFinite.sub (hp : p.IsFinite) (hq : q.IsFinite) (h : p.sub q = .ok r) : r.IsFinite := by
  obtain ⟨q', hq', h⟩ := bind_eq_ok_iff.mp h
  exact hp.add (hq.neg hq') h

theorem IsFinite.div [Platform] (hp : p.IsFinite) (hq : q.IsFinite) (h : p.div q = .ok r) :
    r.IsFinite := by
  obtain ⟨q', hq', h⟩ := bind_eq_ok_iff.mp h
  exact hp.mul (hq.inverse hq') h

end Quantity

end UnitCalc
