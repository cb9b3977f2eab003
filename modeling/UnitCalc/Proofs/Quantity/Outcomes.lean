import UnitCalc.Proofs.Binary64.Rounded
import UnitCalc.Proofs.Expr.Dimension
import UnitCalc.Proofs.Quantity.Finite

/-!
# Outcomes of quantity arithmetic

An operation on quantities with finite magnitudes ends in another such quantity, in an evaluation
error, or at a limit, and `Computation.Exceeds` says for each operation when it ends at one. Sums
and products check their result, powers refuse a result that is too large, but two things are not
checked: a whole number that a quantity is multiplied by may itself be too large, and an error may
have to show an exponent that is too long to write.
-/

namespace UnitCalc

/-- An operation with its operands. A whole number may stand on either side of a quantity. -/
inductive Computation where
  | neg (q : Quantity)
  | add (p q : Quantity)
  | sub (p q : Quantity)
  | mul (p q : Quantity)
  | div (p q : Quantity)
  | inverse (q : Quantity)
  | pow (q : Quantity) (n : Int)
  | mulWhole (q : Quantity) (n : Int)
  | wholeMul (n : Int) (q : Quantity)

namespace Computation

variable {c : Computation} {q r l m : Quantity} {f : Fault} {failure : Failure} {limit : Limit}

/-- The result of a computation. -/
def run [Platform] : Computation → Except Fault Quantity
  | neg q => q.neg
  | add p q => p.add q
  | sub p q => p.sub q
  | mul p q => p.mul q
  | div p q => p.div q
  | inverse q => q.inverse
  | pow q n => q.pow n
  | mulWhole q n => q.scaleInt n
  | wholeMul n q => q.scaleInt n

/-- The quantities that a computation starts from. -/
def operands : Computation → List Quantity
  | neg q | inverse q | pow q _ | mulWhole q _ | wholeMul _ q => [q]
  | add p q | sub p q | mul p q | div p q => [p, q]

/-- A sum or a difference of quantities that differ in dimension. -/
def IsMismatched : Computation → Prop
  | add p q | sub p q => p.dimension ≠ q.dimension
  | _ => False

/-- The computation ends at a limit. A sum, a quotient or a power does so where it fails and its
operands or its exponent are too long to be shown, and a product with a whole number does so where
that number is too large. -/
def Exceeds [Platform] : Computation → Limit → Prop
  | neg _, _ | mul .., _ => False
  | add p q, limit | sub p q, limit => limit = .tooManyDigits ∧ p.dimension ≠ q.dimension ∧
      (p.isWritable && q.isWritable) = false
  | div _ q, limit | inverse q, limit => limit = .tooManyDigits ∧
      (∃ cause, q.magnitude.power (-1) = .error cause) ∧ q.isWritable = false
  | pow q n, limit => limit = .tooManyDigits ∧ (∃ cause, q.magnitude.power n = .error cause) ∧
      (q.isWritable && Text.isWritable n) = false
  | mulWhole _ n, limit | wholeMul n _, limit =>
      limit = .integerTooLarge ∧ Binary64.overflowThreshold ≤ n.natAbs

section

variable [Platform]

/-- What finite operands give is finite. -/
theorem isFinite_of_run (hc : ∀ q ∈ c.operands, q.IsFinite) (h : c.run = .ok r) : r.IsFinite := by
  cases c with
  | neg q => exact (hc q (by simp [operands])).neg h
  | add p q => exact (hc p (by simp [operands])).add (hc q (by simp [operands])) h
  | sub p q => exact (hc p (by simp [operands])).sub (hc q (by simp [operands])) h
  | mul p q => exact (hc p (by simp [operands])).mul (hc q (by simp [operands])) h
  | div p q => exact (hc p (by simp [operands])).div (hc q (by simp [operands])) h
  | inverse q => exact (hc q (by simp [operands])).inverse h
  | pow q n =>
    rw [run] at h
    exact (hc q (by simp [operands])).pow h
  | mulWhole q n | wholeMul n q =>
    rw [run] at h
    exact (hc q (by simp [operands])).scaleInt h

/-- Every fault of a computation is that of an operation on quantities, but for a whole number that
is too large. -/
theorem isArithmetic_or_of_run (h : c.run = .error f) :
    f.IsArithmetic ∨ f = .limit .integerTooLarge := by
  cases c with
  | neg q => exact .inl (Quantity.isArithmetic_of_neg h)
  | add p q => exact .inl (Quantity.isArithmetic_of_add h)
  | sub p q => exact .inl (Quantity.isArithmetic_of_sub h)
  | mul p q => exact .inl (Quantity.isArithmetic_of_mul h)
  | div p q => exact .inl (Quantity.isArithmetic_of_div h)
  | inverse q => exact .inl (Quantity.isArithmetic_of_inverse h)
  | pow q n =>
    rw [run] at h
    exact .inl (Quantity.isArithmetic_of_pow h)
  | mulWhole q n | wholeMul n q =>
    rw [run] at h
    exact Quantity.scaleInt_eq_error h

theorem isMismatched_of_run (h : c.run = .error (.mismatch l m)) : c.IsMismatched := by
  cases c with
  | add p q => exact (Quantity.eq_of_add_eq_mismatch h).2.2
  | sub p q =>
    have hsub : Operation.sub.run p q = .error (.mismatch l m) := h
    exact (Operation.mismatch_of_run hsub).2.2.2
  | neg q => exact absurd h Quantity.neg_ne_mismatch
  | mul p q => exact absurd h Quantity.mul_ne_mismatch
  | div p q =>
    have hdiv : Operation.div.run p q = .error (.mismatch l m) := h
    exact absurd (Operation.mismatch_of_run hdiv).1 (by simp)
  | inverse q => exact absurd h Quantity.inverse_ne_mismatch
  | pow q n =>
    rw [run] at h
    exact absurd h Quantity.pow_ne_mismatch
  | mulWhole q n | wholeMul n q =>
    rw [run] at h
    exact absurd h Quantity.scaleInt_ne_mismatch

theorem run_eq_limit_iff (hc : ∀ q ∈ c.operands, q.IsFinite) :
    c.run = .error (.limit limit) ↔ c.Exceeds limit := by
  cases c with
  | neg q => exact iff_of_false Quantity.neg_ne_limit not_false
  | add p q => exact Quantity.add_eq_limit_iff
  | sub p q =>
    -- the negation that comes first succeeds on a finite magnitude
    have hq := Quantity.neg_eq (hc q (by simp [operands])).isInfinite_eq_false
    exact Quantity.sub_eq_limit_iff.trans (and_congr_right' (and_iff_right ⟨_, hq⟩))
  | mul p q => exact iff_of_false Quantity.mul_ne_limit not_false
  | div p q => exact Quantity.div_eq_limit_iff
  | inverse q => exact Quantity.inverse_eq_limit_iff
  | pow q n =>
    rw [run]
    exact Quantity.pow_eq_limit_iff
  | mulWhole q n | wholeMul n q =>
    rw [run]
    exact Quantity.scaleInt_eq_limit_iff

/-- A computation on finite quantities ends in a finite quantity, in an evaluation error, or at a
limit. The error is a mismatch only for sums and differences of different dimensions, and the limits
are those of `Exceeds`. -/
theorem computation_outcomes (c : Computation) (hc : ∀ q ∈ c.operands, q.IsFinite) :
    ((∃ r, c.run = .ok r ∧ r.IsFinite) ∨
      (∃ error, c.run = .error (.failure (.evaluate error))) ∨
      ∃ limit, c.run = .error (.limit limit)) ∧
    (∀ l m, c.run = .error (.failure (.evaluate (.mismatch l m))) → c.IsMismatched) ∧
    ∀ limit, c.run = .error (.limit limit) ↔ c.Exceeds limit := by
  refine ⟨?_, fun l m ↦ isMismatched_of_run, fun limit ↦ run_eq_limit_iff hc⟩
  cases h : c.run with
  | ok r => exact .inl ⟨r, rfl, isFinite_of_run hc h⟩
  | error fault =>
    rcases isArithmetic_or_of_run h with hf | rfl
    · rcases hf.isOfEvaluation.failure_or_limit with ⟨error, rfl⟩ | rfl
      · exact .inr (.inl ⟨error, rfl⟩)
      · exact .inr (.inr ⟨_, rfl⟩)
    · exact .inr (.inr ⟨_, rfl⟩)

end

open Rounded in
theorem computation_outcomes_meter_second :
    let c := sub (.ofBaseUnit .meter) (.ofBaseUnit .second)
    let minusSecond : Quantity := ⟨.one true, .ofBaseUnit .second⟩
    (∀ q ∈ c.operands, q.IsFinite) ∧
      c.run = .error (.failure (.evaluate (.mismatch (.ofBaseUnit .meter) minusSecond))) ∧
      c.IsMismatched ∧ ∀ limit, c.run = .error (.limit limit) ↔ c.Exceeds limit := by
  intro c minusSecond
  have hc : ∀ q ∈ c.operands, q.IsFinite := by simp [c, operands, Quantity.isFinite_ofBaseUnit]
  have hrun : c.run = .error (.failure (.evaluate (.mismatch (.ofBaseUnit .meter) minusSecond))) :=
    by decide +kernel
  obtain ⟨-, hmismatch, hlimit⟩ := computation_outcomes c hc
  exact ⟨hc, hrun, hmismatch _ _ hrun, hlimit⟩

/-- A whole number that a quantity is multiplied by may be too large, which is no evaluation error.
-/
theorem run_mulWhole_ten_pow [Platform] {k : Nat} (hk : 308 < k) :
    (mulWhole q (10 ^ k : Nat)).run = .error (.limit .integerTooLarge) :=
  Quantity.scaleInt_eq_limit_iff.mpr ⟨rfl, Binary64.overflowThreshold_le_ten_pow hk⟩

open Rounded in
theorem mulWhole_ten_pow_309 :
    let c := mulWhole (.ofBaseUnit .meter) (10 ^ 309 : Nat)
    (∀ q ∈ c.operands, q.IsFinite) ∧ c.run = .error (.limit .integerTooLarge) :=
  ⟨List.forall_mem_singleton.mpr (Quantity.isFinite_ofBaseUnit _),
    run_mulWhole_ten_pow (k := 309) (by decide)⟩

end Computation

end UnitCalc
