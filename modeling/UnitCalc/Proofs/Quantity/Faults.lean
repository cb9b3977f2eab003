import UnitCalc.Proofs.Binary64.Range
import UnitCalc.Proofs.Except
import UnitCalc.Quantity.Arithmetic

/-!
# Faults of quantity arithmetic

Every fault of an operation on quantities is that of an evaluation error. It is a limit instead of a
failure exactly if the message of the error needs an exponent that is too long to write, which for
each operation comes down to the dimensions of its operands and to the power that is asked for.
-/

namespace UnitCalc

variable {limit : Limit} {f : Fault} {d : Dimension} {x : Binary64} {p q : Quantity} {n : Int}

/-! ## Evaluation errors -/

/-- A fault that an evaluation error stands for. -/
def Fault.IsOfEvaluation (f : Fault) : Prop := ∃ error : EvaluateError, f = error.fault

/-- The errors that operations on quantities report. -/
def EvaluateError.IsArithmetic : EvaluateError → Prop
  | mismatch .. | sumOutOfRange | productOutOfRange | zeroBase .. | powerOutOfRange .. => True
  | _ => False

/-- A fault that an error of an operation on quantities stands for. -/
def Fault.IsArithmetic (f : Fault) : Prop :=
  ∃ error : EvaluateError, error.IsArithmetic ∧ f = error.fault

theorem Fault.IsArithmetic.isOfEvaluation (h : f.IsArithmetic) : f.IsOfEvaluation := by
  obtain ⟨error, -, hf⟩ := h
  exact ⟨error, hf⟩

theorem EvaluateError.fault_eq_limit_iff {error : EvaluateError} :
    error.fault = .limit limit ↔ limit = .tooManyDigits ∧ error.isWritable = false := by
  rw [EvaluateError.fault]
  cases error.isWritable with
  | false => simp [eq_comm]
  | true => simp

theorem EvaluateError.fault_eq_failure_iff {error : EvaluateError} {failure : Failure} :
    error.fault = .failure failure ↔ failure = .evaluate error ∧ error.isWritable = true := by
  rw [EvaluateError.fault]
  cases error.isWritable with
  | false => simp
  | true => simp [eq_comm]

theorem Fault.IsOfEvaluation.failure_or_limit (h : f.IsOfEvaluation) :
    (∃ error, f = .failure (.evaluate error)) ∨ f = .limit .tooManyDigits := by
  obtain ⟨error, rfl⟩ := h
  rw [EvaluateError.fault]
  by_cases hw : error.isWritable = true
  · rw [if_pos hw]
    exact .inl ⟨error, rfl⟩
  · rw [if_neg hw]
    exact .inr rfl

/-- Whole numbers in the range of binary64 may be written. -/
theorem Binary64.isWritable_of_lt (hn : n.natAbs < overflowThreshold) :
    Text.isWritable n = true := by
  have hlarge : overflowThreshold ≤ 10 ^ Text.digitLimit := overflowThreshold_le_ten_pow (by decide)
  rw [Text.isWritable, decide_eq_true_eq]
  exact hn.trans_le hlarge

/-- A power that is too long to write is out of range. -/
theorem Binary64.power_of_not_isWritable [Platform] (hn : Text.isWritable n = false) :
    x.power n = .error .overflow := by
  have hnone : ofInt? n = none := by
    rw [ofInt?_eq_none_iff, ← Nat.not_lt]
    intro hlt
    rw [isWritable_of_lt hlt] at hn
    cases hn
  unfold power
  rw [hnone]

namespace Quantity

/-! ## Sums and products -/

theorem bounded_eq_error_iff {error : EvaluateError} :
    bounded error x d = .error f ↔ x.isInfinite = true ∧ f = error.fault := by
  rw [bounded]
  cases x.isInfinite with
  | false => simp
  | true => simp [eq_comm]

theorem bounded_ne_limit {error : EvaluateError} (hw : error.isWritable = true) :
    bounded error x d ≠ .error (.limit limit) := by
  intro h
  have := EvaluateError.fault_eq_limit_iff.mp (bounded_eq_error_iff.mp h).2.symm
  rw [hw] at this
  exact Bool.noConfusion this.2

theorem mul_ne_limit : p.mul q ≠ .error (.limit limit) := bounded_ne_limit rfl

theorem neg_ne_limit : q.neg ≠ .error (.limit limit) := bounded_ne_limit rfl

theorem isArithmetic_of_bounded {error : EvaluateError} (h : bounded error x d = .error f)
    (he : error.IsArithmetic) : f.IsArithmetic :=
  ⟨error, he, (bounded_eq_error_iff.mp h).2⟩

theorem isArithmetic_of_mul (h : p.mul q = .error f) : f.IsArithmetic :=
  isArithmetic_of_bounded h trivial

theorem isArithmetic_of_neg (h : q.neg = .error f) : f.IsArithmetic :=
  isArithmetic_of_bounded h trivial

theorem isArithmetic_of_add (h : p.add q = .error f) : f.IsArithmetic := by
  rw [add] at h
  split at h
  · exact isArithmetic_of_bounded h trivial
  · exact ⟨.mismatch p q, trivial, (Except.error.inj h).symm⟩

theorem isArithmetic_of_sub (h : p.sub q = .error f) : f.IsArithmetic := by
  rcases bind_eq_error_iff.mp h with h | ⟨r, -, h⟩
  · exact isArithmetic_of_neg h
  · exact isArithmetic_of_add h

theorem add_eq_limit_iff : p.add q = .error (.limit limit) ↔
    limit = .tooManyDigits ∧ p.dimension ≠ q.dimension ∧
      (p.isWritable && q.isWritable) = false := by
  rw [add]
  by_cases hd : p.dimension = q.dimension
  · rw [if_pos hd]
    exact iff_of_false (bounded_ne_limit rfl) fun h ↦ h.2.1 hd
  · rw [if_neg hd, Except.error.injEq, EvaluateError.fault_eq_limit_iff]
    simp [EvaluateError.isWritable, hd]

theorem isWritable_of_neg {r : Quantity} (h : q.neg = .ok r) : r.isWritable = q.isWritable := by
  rw [isWritable, isWritable, dimension_of_scale h]

theorem sub_eq_limit_iff : p.sub q = .error (.limit limit) ↔
    limit = .tooManyDigits ∧ (∃ r, q.neg = .ok r) ∧ p.dimension ≠ q.dimension ∧
      (p.isWritable && q.isWritable) = false := by
  rw [sub, bind_eq_error_iff]
  constructor
  · -- a negation keeps the dimension, and its own error is short
    rintro (h | ⟨r, hr, h⟩)
    · exact absurd h neg_ne_limit
    · rw [add_eq_limit_iff, dimension_of_scale hr, isWritable_of_neg hr] at h
      exact ⟨h.1, ⟨r, hr⟩, h.2⟩
  · rintro ⟨hl, ⟨r, hr⟩, h⟩
    refine .inr ⟨r, hr, ?_⟩
    rw [add_eq_limit_iff, dimension_of_scale hr, isWritable_of_neg hr]
    exact ⟨hl, h⟩

/-! ## Powers and quotients -/

section

variable [Platform]

theorem pow_eq_error_iff : q.pow n = .error f ↔
    (q.magnitude.power n = .error .zeroBase ∧ f = (EvaluateError.zeroBase q (.whole n)).fault) ∨
      (q.magnitude.power n = .error .overflow ∧
        f = (EvaluateError.powerOutOfRange q (.whole n)).fault) := by
  unfold pow
  cases q.magnitude.power n with
  | ok => simp
  | error cause => cases cause <;> simp [eq_comm]

theorem isArithmetic_of_pow (h : q.pow n = .error f) : f.IsArithmetic := by
  rcases pow_eq_error_iff.mp h with ⟨-, hf⟩ | ⟨-, hf⟩
  · exact ⟨.zeroBase q (.whole n), trivial, hf⟩
  · exact ⟨.powerOutOfRange q (.whole n), trivial, hf⟩

theorem isArithmetic_of_inverse (h : q.inverse = .error f) : f.IsArithmetic :=
  isArithmetic_of_pow (n := -1) h

theorem isArithmetic_of_div (h : p.div q = .error f) : f.IsArithmetic := by
  rcases bind_eq_error_iff.mp h with h | ⟨r, -, h⟩
  · exact isArithmetic_of_pow h
  · exact isArithmetic_of_mul h

theorem pow_eq_limit_iff : q.pow n = .error (.limit limit) ↔
    limit = .tooManyDigits ∧ (∃ cause, q.magnitude.power n = .error cause) ∧
      (q.isWritable && Text.isWritable n) = false := by
  simp only [pow_eq_error_iff, eq_comm (a := Fault.limit limit), EvaluateError.fault_eq_limit_iff,
    EvaluateError.isWritable, Exponent.isWritable]
  constructor
  · rintro (⟨h, hl, hw⟩ | ⟨h, hl, hw⟩)
    · exact ⟨hl, ⟨_, h⟩, hw⟩
    · exact ⟨hl, ⟨_, h⟩, hw⟩
  · rintro ⟨hl, ⟨cause, h⟩, hw⟩
    cases cause
    · exact .inl ⟨h, hl, hw⟩
    · exact .inr ⟨h, hl, hw⟩

/-- For a quantity that may be written, the power alone decides. -/
theorem pow_eq_limit_iff_of_isWritable (hq : q.isWritable = true) :
    q.pow n = .error (.limit limit) ↔ limit = .tooManyDigits ∧ Text.isWritable n = false := by
  rw [pow_eq_limit_iff, hq, Bool.true_and]
  constructor
  · rintro ⟨hl, -, hn⟩
    exact ⟨hl, hn⟩
  · rintro ⟨hl, hn⟩
    exact ⟨hl, ⟨_, Binary64.power_of_not_isWritable hn⟩, hn⟩

theorem inverse_eq_limit_iff : q.inverse = .error (.limit limit) ↔
    limit = .tooManyDigits ∧ (∃ cause, q.magnitude.power (-1) = .error cause) ∧
      q.isWritable = false := by
  -- the exponent of an inverse is short, so the dimension decides
  have hone : Text.isWritable (-1) = true := by
    rw [Text.isWritable, decide_eq_true_eq]
    exact Nat.one_lt_pow (by decide) (by decide)
  rw [inverse, pow_eq_limit_iff, hone, Bool.and_true]

theorem div_eq_limit_iff : p.div q = .error (.limit limit) ↔
    limit = .tooManyDigits ∧ (∃ cause, q.magnitude.power (-1) = .error cause) ∧
      q.isWritable = false := by
  rw [div, bind_eq_error_iff, inverse_eq_limit_iff]
  refine or_iff_left ?_
  rintro ⟨r, -, h⟩
  exact mul_ne_limit h

end

/-! ## Products with a whole number -/

theorem scaleInt_eq_limit_iff : q.scaleInt n = .error (.limit limit) ↔
    limit = .integerTooLarge ∧ Binary64.overflowThreshold ≤ n.natAbs := by
  rw [← Binary64.ofInt?_eq_none_iff, scaleInt_eq]
  cases Binary64.ofInt? n with
  | none => simp [eq_comm]
  | some x => exact iff_of_false (bounded_ne_limit rfl) (by simp)

/-- A product with a whole number fails with an evaluation error or because the number is too
large. -/
theorem scaleInt_eq_error (h : q.scaleInt n = .error f) :
    f.IsArithmetic ∨ f = .limit .integerTooLarge := by
  rw [scaleInt_eq] at h
  split at h
  · exact .inl (isArithmetic_of_bounded h trivial)
  · exact .inr (Except.error.inj h).symm

end Quantity

end UnitCalc
