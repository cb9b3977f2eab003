import UnitCalc.Proofs.Expr.Origin

/-!
# Faults of evaluation

Evaluation reports every mistake as an evaluation error. It runs into a limit exactly if the first
operation that fails has a message with an exponent that is too long to write: `ExceedsDigits` says
which operation that is, along the order of evaluation.
-/

namespace UnitCalc

variable {t : UnitTable} {limit : Limit} {f : Fault} {p q : Quantity} {op : Operation} {e : Expr}

namespace Operation

/-- The operation fails on quantities with dimensions that are too long to write. -/
def ExceedsDigits [Platform] : Operation → Quantity → Quantity → Prop
  | add, p, q => p.dimension ≠ q.dimension ∧ (p.isWritable && q.isWritable) = false
  | sub, p, q =>
    (∃ r, q.neg = .ok r) ∧ p.dimension ≠ q.dimension ∧ (p.isWritable && q.isWritable) = false
  | mul, _, _ => False
  | div, _, q => (∃ cause, q.magnitude.power (-1) = .error cause) ∧ q.isWritable = false

theorem run_eq_limit_iff [Platform] : op.run p q = .error (.limit limit) ↔
    limit = .tooManyDigits ∧ op.ExceedsDigits p q := by
  cases op
  · exact Quantity.add_eq_limit_iff
  · exact Quantity.sub_eq_limit_iff
  · exact iff_of_false Quantity.mul_ne_limit And.right
  · exact Quantity.div_eq_limit_iff

end Operation

/-- No quantity of the table has an exponent that is too long to write. -/
def UnitTable.IsWritable (t : UnitTable) : Prop :=
  ∀ symbol q, t.get? symbol = some q → q.isWritable = true

namespace Expr

/-- Evaluation gets to a node that fails with a number that is too long to write. -/
def ExceedsDigits [Platform] (t : UnitTable) : Expr → Prop
  | integer _ | decimal _ | unit _ => False
  | unitPower symbol power => (t.get? symbol).isSome = true ∧ Text.isWritable power = false
  | suffixed value suffix =>
    value.ExceedsDigits t ∨ ∃ p, value.evaluate t = .ok p ∧ suffix.ExceedsDigits t
  | binary left operator right =>
    ∃ op, Operation.ofText? operator = some op ∧
      (left.ExceedsDigits t ∨ ∃ p, left.evaluate t = .ok p ∧
        (right.ExceedsDigits t ∨ ∃ q, right.evaluate t = .ok q ∧ op.ExceedsDigits p q))
  | foreign value => value.isWritable = false

theorem lookup_ne_limit {symbol : String} : t.lookup symbol ≠ .error (.limit limit) := by
  rw [UnitTable.lookup]
  cases t.get? symbol with
  | none => rintro ⟨⟩
  | some q => rintro ⟨⟩

section

variable [Platform]

/-- Every fault of evaluation is that of an evaluation error. -/
theorem isOfEvaluation_of_evaluate (h : e.evaluate t = .error f) : f.IsOfEvaluation := by
  obtain ⟨error, -, hf⟩ := admitsFault_of_evaluate h
  exact ⟨error, hf⟩

theorem stage_of_evaluate {failure : Failure} (h : e.evaluate t = .error (.failure failure)) :
    failure.stage = .evaluate := by
  rcases (isOfEvaluation_of_evaluate h).failure_or_limit with ⟨error, ⟨⟩⟩ | ⟨⟨⟩⟩
  rfl

/-- Evaluation over a table that may be written exceeds no limit but that of written numbers, and
that one exactly at a node that needs too many digits. -/
theorem evaluate_eq_limit_iff (ht : t.IsWritable) : e.evaluate t = .error (.limit limit) ↔
    limit = .tooManyDigits ∧ e.ExceedsDigits t := by
  induction e with
  | integer value =>
    rw [evaluate_integer]
    refine iff_of_false ?_ And.right
    split <;> rintro ⟨⟩
  | decimal value => exact iff_of_false (by rintro ⟨⟩) And.right
  | unit symbol => exact iff_of_false lookup_ne_limit And.right
  | unitPower symbol power =>
    rw [evaluate_unitPower, ExceedsDigits, UnitTable.lookup]
    cases hq : t.get? symbol with
    | none => exact iff_of_false (by rintro ⟨⟩) fun h ↦ Bool.noConfusion h.2.1
    | some q =>
      rw [Option.isSome_some, eq_self, true_and]
      simp only [ok_bind]
      exact Quantity.pow_eq_limit_iff_of_isWritable (ht symbol q hq)
  | suffixed value suffix ihv ihs =>
    rw [evaluate_suffixed, ExceedsDigits, and_or_left]
    simp only [bind_eq_error_iff, ihv, ihs, Quantity.mul_ne_limit, and_false, exists_false,
      or_false, and_left_comm, exists_and_left]
  | binary left operator right ihl ihr =>
    rw [evaluate_binary, ExceedsDigits]
    cases hop : Operation.ofText? operator with
    | none => simp [EvaluateError.fault_eq_limit_iff, EvaluateError.isWritable]
    | some op =>
      simp only [bind_eq_error_iff, ihl, ihr, Operation.run_eq_limit_iff, Option.some.injEq,
        exists_eq_left', and_or_left, and_left_comm, exists_and_left, exists_or]
  | foreign value =>
    rw [evaluate_foreign, Except.error.injEq, EvaluateError.fault_eq_limit_iff]
    rfl

end

end Expr

end UnitCalc
