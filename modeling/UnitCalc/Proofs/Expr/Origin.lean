import UnitCalc.Proofs.Expr.Dimension

/-!
# Where errors of evaluation come from

An evaluation ends in the error of one node. An arithmetic error may come from any operation, but
the others tell which node it is: a literal that is too large, a unit that the table does not have,
an operator or a leaf that means nothing. `Expr.Admits` says so for every error, and an expression
without such nodes never ends in such an error.
-/

namespace UnitCalc

variable {t : UnitTable} {f : Fault} {p q : Quantity} {op : Operation} {e s : Expr}
  {error : EvaluateError} {symbol : String}

/-- The failure that a table has no unit of a symbol. -/
def Fault.unknownUnit (symbol : String) : Fault := .failure (.evaluate (.unknownUnit symbol))

theorem Operation.isArithmetic_of_run [Platform] (h : op.run p q = .error f) : f.IsArithmetic := by
  cases op with
  | add => exact Quantity.isArithmetic_of_add h
  | sub => exact Quantity.isArithmetic_of_sub h
  | mul => exact Quantity.isArithmetic_of_mul h
  | div => exact Quantity.isArithmetic_of_div h

theorem UnitTable.lookup_eq_error_iff :
    t.lookup symbol = .error f ↔ t.get? symbol = none ∧ f = .unknownUnit symbol := by
  have hfault : (EvaluateError.unknownUnit symbol).fault = .unknownUnit symbol := rfl
  rw [lookup, hfault]
  cases t.get? symbol with
  | none => simp [eq_comm]
  | some q => simp

theorem UnitTable.isSome_of_lookup (h : t.lookup symbol = .ok q) :
    (t.get? symbol).isSome = true := by
  rw [lookup] at h
  cases hget : t.get? symbol with
  | none =>
    rw [hget] at h
    cases h
  | some q => rfl

namespace Expr

/-- The expression has a unit of this symbol. -/
def Names (e : Expr) (symbol : String) : Prop :=
  IsSubtree (.unit symbol) e ∨ ∃ power, IsSubtree (.unitPower symbol power) e

/-- The errors that the nodes of an expression may have over a table. -/
def Admits (t : UnitTable) (e : Expr) : EvaluateError → Prop
  | .literalOutOfRange => ∃ n, IsSubtree (.integer n) e ∧ Binary64.ofInt? n = none
  | .unknownUnit symbol => e.Names symbol ∧ t.get? symbol = none
  | .badOperator operator =>
    ∃ l r, IsSubtree (.binary l operator r) e ∧ Operation.ofText? operator = none
  | .notAnExpression value => IsSubtree (.foreign value) e
  | _ => True

/-- The errors of a subtree are errors of the whole tree. -/
theorem Admits.mono (h : s.Admits t error) (hs : ∀ {v : Expr}, IsSubtree v s → IsSubtree v e) :
    e.Admits t error := by
  cases error with
  | literalOutOfRange =>
    obtain ⟨n, hn, hnone⟩ := h
    exact ⟨n, hs hn, hnone⟩
  | unknownUnit symbol =>
    obtain ⟨hu | ⟨power, hu⟩, hnone⟩ := h
    · exact ⟨.inl (hs hu), hnone⟩
    · exact ⟨.inr ⟨power, hs hu⟩, hnone⟩
  | badOperator operator =>
    obtain ⟨l, r, hb, hnone⟩ := h
    exact ⟨l, r, hs hb, hnone⟩
  | notAnExpression value => exact hs h
  | _ => trivial

theorem admits_of_isArithmetic (h : error.IsArithmetic) : e.Admits t error := by
  cases error with
  | literalOutOfRange | unknownUnit | badOperator | notAnExpression => exact h.elim
  | _ => trivial

/-- A fault is one of a tree. -/
def AdmitsFault (t : UnitTable) (e : Expr) (f : Fault) : Prop :=
  ∃ error, e.Admits t error ∧ f = error.fault

theorem AdmitsFault.mono (h : s.AdmitsFault t f)
    (hs : ∀ {v : Expr}, IsSubtree v s → IsSubtree v e) : e.AdmitsFault t f := by
  obtain ⟨error, he, hf⟩ := h
  exact ⟨error, he.mono hs, hf⟩

theorem admitsFault_of_isArithmetic (h : f.IsArithmetic) : e.AdmitsFault t f := by
  obtain ⟨error, he, hf⟩ := h
  exact ⟨error, admits_of_isArithmetic he, hf⟩

section

variable [Platform]

/-- An evaluation ends in an error of one of the nodes. -/
theorem admitsFault_of_evaluate (h : e.evaluate t = .error f) : e.AdmitsFault t f := by
  induction e with
  | integer value =>
    rw [evaluate_integer] at h
    cases hvalue : Binary64.ofInt? value with
    | none =>
      rw [hvalue] at h
      exact ⟨.literalOutOfRange, ⟨value, .refl, hvalue⟩, (Except.error.inj h).symm⟩
    | some x =>
      rw [hvalue] at h
      cases h
  | decimal value => cases h
  | unit symbol =>
    obtain ⟨hnone, hf⟩ := UnitTable.lookup_eq_error_iff.mp h
    exact ⟨.unknownUnit symbol, ⟨.inl .refl, hnone⟩, hf⟩
  | unitPower symbol power =>
    rw [evaluate_unitPower] at h
    rcases bind_eq_error_iff.mp h with h | ⟨q, -, h⟩
    · obtain ⟨hnone, hf⟩ := UnitTable.lookup_eq_error_iff.mp h
      exact ⟨.unknownUnit symbol, ⟨.inr ⟨power, .refl⟩, hnone⟩, hf⟩
    · exact admitsFault_of_isArithmetic (Quantity.isArithmetic_of_pow h)
  | suffixed value suffix ihv ihs =>
    rw [evaluate_suffixed] at h
    rcases bind_eq_error_iff.mp h with h | ⟨p, -, h⟩
    · exact (ihv h).mono .value
    rcases bind_eq_error_iff.mp h with h | ⟨q, -, h⟩
    · exact (ihs h).mono .suffix
    · exact admitsFault_of_isArithmetic (Quantity.isArithmetic_of_mul h)
  | binary left operator right ihl ihr =>
    rw [evaluate_binary] at h
    cases hop : Operation.ofText? operator with
    | none =>
      rw [hop] at h
      exact ⟨.badOperator operator, ⟨left, right, .refl, hop⟩, (Except.error.inj h).symm⟩
    | some op =>
      rw [hop] at h
      rcases bind_eq_error_iff.mp h with h | ⟨p, -, h⟩
      · exact (ihl h).mono .left
      rcases bind_eq_error_iff.mp h with h | ⟨q, -, h⟩
      · exact (ihr h).mono .right
      · exact admitsFault_of_isArithmetic (Operation.isArithmetic_of_run h)
  | foreign value => exact ⟨.notAnExpression value, .refl, (Except.error.inj h).symm⟩

/-! ## Values -/

/-- An expression that has a value has values at all its nodes. -/
theorem IsSubtree.exists_evaluate (hs : IsSubtree s e) (h : e.evaluate t = .ok q) :
    ∃ p, s.evaluate t = .ok p := by
  induction hs generalizing q with
  | refl => exact ⟨q, h⟩
  | value _ ih =>
    obtain ⟨p, hp, -⟩ := bind_eq_ok_iff.mp h
    exact ih hp
  | suffix _ ih =>
    obtain ⟨v, -, h⟩ := bind_eq_ok_iff.mp h
    obtain ⟨p, hp, -⟩ := bind_eq_ok_iff.mp h
    exact ih hp
  | left _ ih =>
    rw [evaluate_binary] at h
    split at h
    · cases h
    · obtain ⟨p, hp, -⟩ := bind_eq_ok_iff.mp h
      exact ih hp
  | right _ ih =>
    rw [evaluate_binary] at h
    split at h
    · cases h
    · obtain ⟨l, -, h⟩ := bind_eq_ok_iff.mp h
      obtain ⟨p, hp, -⟩ := bind_eq_ok_iff.mp h
      exact ih hp

/-- An expression with a unit that the table does not have has no value. -/
theorem Names.isSome_get? (hs : e.Names symbol) (h : e.evaluate t = .ok q) :
    (t.get? symbol).isSome = true := by
  rcases hs with hs | ⟨power, hs⟩
  · obtain ⟨p, hp⟩ := hs.exists_evaluate h
    exact UnitTable.isSome_of_lookup hp
  · obtain ⟨p, hp⟩ := hs.exists_evaluate h
    obtain ⟨unit, hunit, -⟩ := bind_eq_ok_iff.mp hp
    exact UnitTable.isSome_of_lookup hunit

end

end Expr

end UnitCalc
