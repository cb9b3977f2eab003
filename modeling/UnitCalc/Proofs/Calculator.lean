import UnitCalc.Calculator
import UnitCalc.Proofs.Binary64.Rounded
import UnitCalc.Proofs.Expr.Faults
import UnitCalc.Proofs.Expr.Read
import UnitCalc.Proofs.UnitTable.Estimate

/-!
# Outcomes of a calculation

A calculation over the standard units ends in a quantity, in a failure of the lexer, the parser or
the evaluation, or at a limit. The limits are of two kinds, and `calculate_outcomes` says which
texts run into them: literals with a point that are out of range, and errors of the evaluation that
would have to show an exponent that is too long to write.
-/

namespace UnitCalc

open Token (Spell LiteralOverflows)

variable {text : String} {limit : Limit} {failure : Failure}

section

variable [Platform]

/-- Every exponent of the standard units is short. -/
theorem UnitTable.isWritable_standard : standard.IsWritable :=
  fun _ _ hq ↦ dimension_of_get?_standard (P := Dimension.isWritable) (by decide +kernel) hq

/-- A text denotes an expression whose evaluation fails with a number that is too long to write. -/
def ExceedsDigits (text : String) : Prop :=
  ∃ ts e, Spell ts (Text.withoutBlanks text.toList) ∧ Derives .sum ts e ∧
    e.ExceedsDigits UnitTable.standard

theorem calculate_eq_limit_iff : calculate text = .error (.limit limit) ↔
    (limit = .integerTooLarge ∧ LiteralOverflows (Text.withoutBlanks text.toList)) ∨
      (limit = .tooManyDigits ∧ ExceedsDigits text) := by
  have hevaluate : (∃ e, Expr.read text = .ok e ∧
      e.evaluate UnitTable.standard = .error (.limit limit)) ↔
        limit = .tooManyDigits ∧ ExceedsDigits text := by
    simp only [Expr.evaluate_eq_limit_iff UnitTable.isWritable_standard, Expr.read_eq_ok_iff]
    constructor
    · rintro ⟨e, ⟨ts, hs, hd⟩, hl, he⟩
      exact ⟨hl, ts, e, hs, hd, he⟩
    · rintro ⟨hl, ts, e, hs, hd, he⟩
      exact ⟨e, ⟨ts, hs, hd⟩, hl, he⟩
  rw [calculate, UnitTable.calculate, bind_eq_error_iff, Expr.read_eq_limit_iff, hevaluate]

/-- A failure of a calculation is never left as that of a unit. -/
theorem stage_of_calculate {t : UnitTable} (h : t.calculate text = .error (.failure failure)) :
    failure.stage ≠ .unit := by
  rcases bind_eq_error_iff.mp h with h | ⟨e, -, h⟩
  · exact Expr.stage_of_read h
  · rw [Expr.stage_of_evaluate h]
    decide

/-- A calculation ends in a quantity, in a failure that is not that of a unit, or at a limit: either
at a literal out of range or at an error with a number that is too long to write. -/
theorem calculate_outcomes (text : String) :
    ((∃ q, calculate text = .ok q) ∨
      (∃ failure, calculate text = .error (.failure failure) ∧ failure.stage ≠ .unit) ∨
      ∃ limit, calculate text = .error (.limit limit)) ∧
    ∀ limit, calculate text = .error (.limit limit) ↔
      (limit = .integerTooLarge ∧ LiteralOverflows (Text.withoutBlanks text.toList)) ∨
        (limit = .tooManyDigits ∧ ExceedsDigits text) := by
  refine ⟨?_, fun limit ↦ calculate_eq_limit_iff⟩
  cases h : calculate text with
  | ok q => exact .inl ⟨q, rfl⟩
  | error fault =>
    cases fault with
    | failure failure => exact .inr (.inl ⟨failure, rfl, stage_of_calculate h⟩)
    | limit limit => exact .inr (.inr ⟨limit, rfl⟩)

/-- A zero with more than 308 digits after the point is out of range. -/
theorem calculate_zero_fraction {n : Nat} (hn : 308 < n) :
    calculate ("0." ++ String.ofList (List.replicate n '0'))
      = .error (.limit .integerTooLarge) := by
  have hdigits : ∀ c ∈ List.replicate n '0', c.isDigit = true := by
    intro c hc
    rw [List.eq_of_mem_replicate hc]
    rfl
  have hblank : Text.withoutBlanks ("0." ++ String.ofList (List.replicate n '0')).toList
      = ['0'] ++ '.' :: List.replicate n '0' := by
    rw [String.toList_append, String.toList_ofList, String.toList_ofList]
    refine Text.withoutBlanks_eq_self_iff.mpr ?_
    intro c hc
    rcases List.mem_append.mp hc with hc | hc
    · have : c = '0' ∨ c = '.' := by simpa using hc
      rcases this with rfl | rfl <;> decide
    · rw [List.eq_of_mem_replicate hc]
      decide
  have hzero : Literal.whole ['0'] < Binary64.overflowThreshold := by decide +kernel
  refine calculate_eq_limit_iff.mpr (.inl ⟨rfl, ?_⟩)
  rw [hblank]
  have hwhole : Token.IsDigits ['0'] := ⟨by simp, List.forall_mem_singleton.mpr rfl⟩
  refine Token.literalOverflows_of_fraction hwhole hzero hdigits ?_
  rwa [List.length_replicate]

end

open Rounded in
theorem calculate_zero_fraction_309 :
    calculate ("0." ++ String.ofList (List.replicate 309 '0')) = .error (.limit .integerTooLarge) :=
  calculate_zero_fraction (by decide)

end UnitCalc
