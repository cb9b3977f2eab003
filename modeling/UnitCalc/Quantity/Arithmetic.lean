import UnitCalc.Binary64.Power
import UnitCalc.Failure.Fault

/-!
# Arithmetic of quantities

Sums need equal dimensions; products and powers combine dimensions. No operation on finite
magnitudes gives an infinite one: that is an error. A difference adds the negated right-hand side,
and a quotient multiplies by the inverse.
-/

namespace UnitCalc

namespace Quantity

/-- A quantity with a magnitude that must not be infinite. -/
def bounded (error : EvaluateError) (magnitude : Binary64) (dimension : Dimension) :
    Except Fault Quantity :=
  if magnitude.isInfinite then .error error.fault else .ok ⟨magnitude, dimension⟩

/-- The sum of quantities of equal dimension. -/
def add (p q : Quantity) : Except Fault Quantity :=
  if p.dimension = q.dimension then
    bounded .sumOutOfRange (p.magnitude + q.magnitude) p.dimension
  else .error (EvaluateError.mismatch p q).fault

/-- The product. -/
def mul (p q : Quantity) : Except Fault Quantity :=
  bounded .productOutOfRange (p.magnitude * q.magnitude) (p.dimension * q.dimension)

/-- The quantity multiplied by a number. -/
def scale (q : Quantity) (x : Binary64) : Except Fault Quantity :=
  bounded .productOutOfRange (q.magnitude * x) q.dimension

/-- The quantity multiplied by a whole number, which is rounded first. -/
def scaleInt (q : Quantity) (n : Int) : Except Fault Quantity :=
  match Binary64.ofInt? n with
  | some x => q.scale x
  | none => .error (.limit .integerTooLarge)

/-- The negated quantity. -/
def neg (q : Quantity) : Except Fault Quantity := q.scale (.one true)

/-- The difference of quantities of equal dimension. -/
def sub (p q : Quantity) : Except Fault Quantity := do p.add (← q.neg)

theorem scaleInt_eq (q : Quantity) (n : Int) : q.scaleInt n =
    match Binary64.ofInt? n with
    | some x => q.scale x
    | none => .error (.limit .integerTooLarge) := by
  rfl

section

variable [Platform]

/-- The power with a whole exponent. -/
def pow (q : Quantity) (n : Int) : Except Fault Quantity :=
  match q.magnitude.power n with
  | .ok magnitude => .ok ⟨magnitude, q.dimension ^ n⟩
  | .error .zeroBase => .error (EvaluateError.zeroBase q (.whole n)).fault
  | .error .overflow => .error (EvaluateError.powerOutOfRange q (.whole n)).fault

/-- The power with exponent `-1`. -/
def inverse (q : Quantity) : Except Fault Quantity := q.pow (-1)

/-- The quotient. -/
def div (p q : Quantity) : Except Fault Quantity := do p.mul (← q.inverse)

end

/-! ### Dimensions of results -/

theorem dimension_of_bounded {error : EvaluateError} {x : Binary64} {d : Dimension} {q : Quantity}
    (h : bounded error x d = .ok q) : q.dimension = d := by
  unfold bounded at h
  split at h
  · simp at h
  · simp only [Except.ok.injEq] at h
    simp [← h]

theorem dimension_of_mul {p q r : Quantity} (h : p.mul q = .ok r) :
    r.dimension = p.dimension * q.dimension := by
  rw [mul] at h
  exact dimension_of_bounded h

theorem dimension_of_scale {q r : Quantity} {x : Binary64} (h : q.scale x = .ok r) :
    r.dimension = q.dimension := by
  rw [scale] at h
  exact dimension_of_bounded h

theorem dimension_of_pow [Platform] {q r : Quantity} {n : Int} (h : q.pow n = .ok r) :
    r.dimension = q.dimension ^ n := by
  unfold pow at h
  split at h
  · simp only [Except.ok.injEq] at h
    simp [← h]
  all_goals simp at h

theorem dimension_of_add {p q r : Quantity} (h : p.add q = .ok r) :
    p.dimension = q.dimension ∧ r.dimension = p.dimension := by
  unfold add at h
  split at h
  · exact ⟨‹_›, dimension_of_bounded h⟩
  · simp at h

end Quantity

end UnitCalc
