import UnitCalc.Expr.Dimension
import UnitCalc.Proofs.Binary64.Rounded
import UnitCalc.Proofs.Quantity.Faults
import UnitCalc.UnitTable.Standard

/-!
# Dimensions as types

`Expr.dimension?` finds the dimension of an expression without looking at any magnitude. It is a
sound type system for evaluation: a value has the dimension that was found, and a mismatch is
reported only at a sum or a difference whose sides have different dimensions. In such an expression
no dimension is found, so one that has a dimension never ends in a mismatch; it may still fail
otherwise, at a magnitude that is out of range.

Evaluation reports a mismatch when both sides have values. So the dimensions that the report shows
are those found for the two sides, and the second part of the argument rests on the first.
-/

namespace UnitCalc

variable {t u : UnitTable} {f : Fault} {p q r l m : Quantity} {n : Int} {op : Operation}
  {e s : Expr} {units : String → Option Dimension} {d d' : Dimension}

/-! ## Mismatches -/

/-- The failure that two quantities of different dimensions cannot be added. -/
def Fault.mismatch (l m : Quantity) : Fault := .failure (.evaluate (.mismatch l m))

theorem EvaluateError.fault_eq_mismatch {error : EvaluateError}
    (h : error.fault = Fault.mismatch l m) : error = .mismatch l m := by
  obtain ⟨hf, -⟩ := EvaluateError.fault_eq_failure_iff.mp h
  exact (Failure.evaluate.inj hf).symm

namespace Quantity

theorem bounded_ne_mismatch {error : EvaluateError} {x : Binary64}
    (h : error ≠ .mismatch l m) : bounded error x d ≠ .error (.mismatch l m) := by
  intro hb
  exact h (EvaluateError.fault_eq_mismatch (bounded_eq_error_iff.mp hb).2.symm)

theorem mul_ne_mismatch : p.mul q ≠ .error (.mismatch l m) := bounded_ne_mismatch (by simp)

theorem neg_ne_mismatch : q.neg ≠ .error (.mismatch l m) := bounded_ne_mismatch (by simp)

theorem pow_ne_mismatch [Platform] : q.pow n ≠ .error (.mismatch l m) := by
  intro h
  rcases pow_eq_error_iff.mp h with ⟨-, hf⟩ | ⟨-, hf⟩
  · exact absurd (EvaluateError.fault_eq_mismatch hf.symm) (by simp)
  · exact absurd (EvaluateError.fault_eq_mismatch hf.symm) (by simp)

theorem inverse_ne_mismatch [Platform] : q.inverse ≠ .error (.mismatch l m) :=
  pow_ne_mismatch (n := -1)

theorem scaleInt_ne_mismatch : q.scaleInt n ≠ .error (.mismatch l m) := by
  rw [scaleInt_eq]
  split
  · exact bounded_ne_mismatch (by simp)
  · simp [Fault.mismatch]

/-- A mismatch of a sum shows its terms. -/
theorem eq_of_add_eq_mismatch (h : p.add q = .error (.mismatch l m)) :
    l = p ∧ m = q ∧ p.dimension ≠ q.dimension := by
  rw [add] at h
  by_cases hd : p.dimension = q.dimension
  · rw [if_pos hd] at h
    exact absurd h (bounded_ne_mismatch (by simp))
  · rw [if_neg hd] at h
    have hm := EvaluateError.fault_eq_mismatch (Except.error.inj h)
    rw [EvaluateError.mismatch.injEq] at hm
    exact ⟨hm.1.symm, hm.2.symm, hd⟩

end Quantity

/-! ## One operation -/

namespace Operation

/-- The result of an operation has the dimension that was found from those of the operands. -/
theorem dimension?_of_run [Platform] (h : op.run p q = .ok r) :
    op.dimension? p.dimension q.dimension = some r.dimension := by
  cases op with
  | add =>
    obtain ⟨hd, hr⟩ := Quantity.dimension_of_add h
    rw [dimension?, if_pos hd, hr]
  | sub =>
    obtain ⟨q', hq', h⟩ := bind_eq_ok_iff.mp h
    obtain ⟨hd, hr⟩ := Quantity.dimension_of_add h
    rw [Quantity.dimension_of_scale hq'] at hd
    rw [dimension?, if_pos hd, hr]
  | mul => rw [dimension?, Quantity.dimension_of_mul h]
  | div =>
    obtain ⟨q', hq', h⟩ := bind_eq_ok_iff.mp h
    rw [dimension?, Quantity.dimension_of_mul h, Quantity.dimension_of_pow hq',
      Dimension.div_eq_mul_pow]

/-- Only sums and differences report a mismatch, and they show the dimensions of their sides. -/
theorem mismatch_of_run [Platform] (h : op.run p q = .error (.mismatch l m)) :
    (op = add ∨ op = sub) ∧ l.dimension = p.dimension ∧ m.dimension = q.dimension ∧
      p.dimension ≠ q.dimension := by
  cases op with
  | add =>
    obtain ⟨rfl, rfl, hd⟩ := Quantity.eq_of_add_eq_mismatch h
    exact ⟨.inl rfl, rfl, rfl, hd⟩
  | sub =>
    rcases bind_eq_error_iff.mp h with h | ⟨q', hq', h⟩
    · exact absurd h Quantity.neg_ne_mismatch
    · obtain ⟨rfl, rfl, hd⟩ := Quantity.eq_of_add_eq_mismatch h
      have hm := Quantity.dimension_of_scale hq'
      exact ⟨.inr rfl, rfl, hm, hm ▸ hd⟩
  | mul => exact absurd h Quantity.mul_ne_mismatch
  | div =>
    rcases bind_eq_error_iff.mp h with h | ⟨q', -, h⟩
    · exact absurd h Quantity.inverse_ne_mismatch
    · exact absurd h Quantity.mul_ne_mismatch

theorem dimension?_eq_none (hop : op = add ∨ op = sub) (hd : d ≠ d') :
    op.dimension? d d' = none := by
  rcases hop with rfl | rfl
  · exact if_neg hd
  · exact if_neg hd

theorem ofText?_eq_add_or_sub_iff {operator : String} :
    (∃ op, ofText? operator = some op ∧ (op = add ∨ op = sub)) ↔
      operator = "+" ∨ operator = "-" := by
  constructor
  · rintro ⟨op, h, hop⟩
    unfold ofText? at h
    split at h
    · exact .inl rfl
    · exact .inr rfl
    all_goals rcases hop with rfl | rfl <;> cases h
  · rintro (rfl | rfl)
    · exact ⟨add, rfl, .inl rfl⟩
    · exact ⟨sub, rfl, .inr rfl⟩

end Operation

namespace Expr

/-! ## Values -/

theorem dimension?_of_lookup {symbol : String} (h : t.lookup symbol = .ok q) :
    t.dimension? symbol = some q.dimension := by
  rw [UnitTable.lookup] at h
  rw [UnitTable.dimension?]
  cases hq : t.get? symbol with
  | none =>
    rw [hq] at h
    cases h
  | some q' =>
    rw [hq] at h
    cases h
    rfl

/-- A value has the dimension that was found. -/
theorem dimension?_of_evaluate [Platform] (h : e.evaluate t = .ok q) :
    e.dimension? t.dimension? = some q.dimension := by
  induction e generalizing q with
  | integer value =>
    rw [evaluate_integer] at h
    split at h
    · cases h
      rfl
    · cases h
  | decimal value =>
    cases h
    rfl
  | unit symbol => exact dimension?_of_lookup h
  | unitPower symbol power =>
    rw [evaluate_unitPower] at h
    obtain ⟨p, hp, h⟩ := bind_eq_ok_iff.mp h
    rw [dimension?, dimension?_of_lookup hp, Option.map_some, Quantity.dimension_of_pow h]
  | suffixed value suffix ihv ihs =>
    rw [evaluate_suffixed] at h
    obtain ⟨p, hp, h⟩ := bind_eq_ok_iff.mp h
    obtain ⟨p', hp', h⟩ := bind_eq_ok_iff.mp h
    rw [dimension?, ihv hp, ihs hp', Quantity.dimension_of_mul h]
    rfl
  | binary left operator right ihl ihr =>
    rw [evaluate_binary] at h
    cases hop : Operation.ofText? operator with
    | none =>
      rw [hop] at h
      cases h
    | some op =>
      rw [hop] at h
      obtain ⟨p, hp, h⟩ := bind_eq_ok_iff.mp h
      obtain ⟨p', hp', h⟩ := bind_eq_ok_iff.mp h
      rw [dimension?, hop, ihl hp, ihr hp', ← Operation.dimension?_of_run h]
      rfl
  | foreign value => cases h

/-! ## Mismatched sums -/

/-- An expression is a node of another one, or the whole of it. -/
inductive IsSubtree (s : Expr) : Expr → Prop where
  | refl : IsSubtree s s
  | value {v suffix : Expr} : IsSubtree s v → IsSubtree s (.suffixed v suffix)
  | suffix {v suffix : Expr} : IsSubtree s suffix → IsSubtree s (.suffixed v suffix)
  | left {l r : Expr} {operator : String} : IsSubtree s l → IsSubtree s (.binary l operator r)
  | right {l r : Expr} {operator : String} : IsSubtree s r → IsSubtree s (.binary l operator r)

/-- The expression has a sum or a difference whose sides have the dimensions `d` and `d'`, which are
different. -/
def HasMismatch (units : String → Option Dimension) (d d' : Dimension) (e : Expr) : Prop :=
  ∃ l operator r, IsSubtree (.binary l operator r) e ∧ (operator = "+" ∨ operator = "-") ∧
    l.dimension? units = some d ∧ r.dimension? units = some d' ∧ d ≠ d'

/-- A mismatch in a subtree is one of the whole tree. -/
theorem HasMismatch.mono (h : HasMismatch units d d' s)
    (hs : ∀ {v : Expr}, IsSubtree v s → IsSubtree v e) : HasMismatch units d d' e := by
  obtain ⟨l, operator, r, hl, h⟩ := h
  exact ⟨l, operator, r, hs hl, h⟩

theorem lookup_ne_mismatch {symbol : String} : t.lookup symbol ≠ .error (.mismatch l m) := by
  rw [UnitTable.lookup]
  cases t.get? symbol with
  | none => rintro ⟨⟩
  | some q => rintro ⟨⟩

/-- A mismatch is reported only at a sum or a difference whose sides have the dimensions shown. -/
theorem hasMismatch_of_evaluate [Platform] (h : e.evaluate t = .error (.mismatch l m)) :
    e.HasMismatch t.dimension? l.dimension m.dimension := by
  induction e with
  | integer value =>
    rw [evaluate_integer] at h
    split at h <;> cases h
  | decimal value => cases h
  | unit symbol => exact absurd h lookup_ne_mismatch
  | unitPower symbol power =>
    rw [evaluate_unitPower] at h
    rcases bind_eq_error_iff.mp h with h | ⟨q, -, h⟩
    · exact absurd h lookup_ne_mismatch
    · exact absurd h Quantity.pow_ne_mismatch
  | suffixed value suffix ihv ihs =>
    rw [evaluate_suffixed] at h
    rcases bind_eq_error_iff.mp h with h | ⟨p, -, h⟩
    · exact (ihv h).mono .value
    rcases bind_eq_error_iff.mp h with h | ⟨q, -, h⟩
    · exact (ihs h).mono .suffix
    · exact absurd h Quantity.mul_ne_mismatch
  | binary left operator right ihl ihr =>
    rw [evaluate_binary] at h
    cases hop : Operation.ofText? operator with
    | none =>
      rw [hop] at h
      exact absurd (EvaluateError.fault_eq_mismatch (Except.error.inj h)) (by simp)
    | some op =>
      rw [hop] at h
      rcases bind_eq_error_iff.mp h with h | ⟨p, hp, h⟩
      · exact (ihl h).mono .left
      rcases bind_eq_error_iff.mp h with h | ⟨q, hq, h⟩
      · exact (ihr h).mono .right
      -- both sides have values here, so their dimensions were found
      obtain ⟨hsum, hl, hm, hd⟩ := Operation.mismatch_of_run h
      refine ⟨left, operator, right, .refl, ?_, ?_, ?_, ?_⟩
      · exact Operation.ofText?_eq_add_or_sub_iff.mp ⟨op, hop, hsum⟩
      · rw [hl, dimension?_of_evaluate hp]
      · rw [hm, dimension?_of_evaluate hq]
      · rwa [hl, hm]
  | foreign value =>
    exact absurd (EvaluateError.fault_eq_mismatch (Except.error.inj h)) (by simp)

/-- No dimension is found for a tree if none is found for one of its nodes. -/
theorem IsSubtree.dimension?_eq_none (h : IsSubtree s e) (hs : s.dimension? units = none) :
    e.dimension? units = none := by
  induction h with
  | refl => exact hs
  | value _ ih => simp [dimension?, ih]
  | suffix _ ih => simp [dimension?, ih]
  | left _ ih => simp [dimension?, ih]
  | right _ ih => simp [dimension?, ih]

theorem HasMismatch.dimension?_eq_none (h : e.HasMismatch units d d') :
    e.dimension? units = none := by
  obtain ⟨l, operator, r, hs, hoperator, hl, hr, hd⟩ := h
  obtain ⟨op, hop, hsum⟩ := Operation.ofText?_eq_add_or_sub_iff.mpr hoperator
  refine hs.dimension?_eq_none ?_
  rw [dimension?, hop, hl, hr]
  exact Operation.dimension?_eq_none hsum hd

/-! ## Soundness -/

/-- The dimension of an expression is a sound type for it. A value has it; a mismatch is reported
only at a sum or a difference whose sides have different dimensions, those of the quantities shown;
so an expression that has a dimension never ends in a mismatch. Hence the dimension of a value does
not depend on the magnitudes of the units. -/
theorem evaluate_sound [Platform] (t : UnitTable) (e : Expr) :
    (∀ q, e.evaluate t = .ok q → e.dimension? t.dimension? = some q.dimension) ∧
    (∀ p q, e.evaluate t = .error (.failure (.evaluate (.mismatch p q))) →
      e.HasMismatch t.dimension? p.dimension q.dimension) ∧
    (∀ d, e.dimension? t.dimension? = some d →
      ∀ p q, e.evaluate t ≠ .error (.failure (.evaluate (.mismatch p q)))) ∧
    ∀ u : UnitTable, (∀ symbol, u.dimension? symbol = t.dimension? symbol) →
      ∀ p q, e.evaluate t = .ok p → e.evaluate u = .ok q → p.dimension = q.dimension := by
  refine ⟨fun q ↦ dimension?_of_evaluate, fun p q ↦ hasMismatch_of_evaluate, ?_, ?_⟩
  · intro d hd p q h
    rw [(hasMismatch_of_evaluate h).dimension?_eq_none] at hd
    cases hd
  · intro u hu p q hp hq
    have hunits : u.dimension? = t.dimension? := funext hu
    have hsome := (dimension?_of_evaluate hp).symm.trans (hunits ▸ dimension?_of_evaluate hq)
    exact Option.some.inj hsome

open Rounded in
/-- The two tables give the same symbol the same dimension, with different magnitudes. -/
theorem evaluate_sound_quarter :
    let t : UnitTable := ⟨[("m", .ofBaseUnit .meter)], [("m", "meter")], rfl⟩
    let u : UnitTable :=
      ⟨[("m", ⟨.ofRatio 2 1, .ofBaseUnit .meter⟩)], [("m", "double meter")], rfl⟩
    let e := binary (unitPower "m" 2) "/" (suffixed (integer 4) (unit "m"))
    let p : Quantity := ⟨.ofRatio 1 4, .ofBaseUnit .meter⟩
    let q : Quantity := ⟨.ofRatio 1 2, .ofBaseUnit .meter⟩
    let minusOne : Quantity := .ofNumber (.one true)
    (e.evaluate t = .ok p ∧ e.evaluate u = .ok q ∧ p.dimension = q.dimension) ∧
      (e.dimension? t.dimension? = some p.dimension ∧
        ∀ p q, e.evaluate t ≠ .error (.failure (.evaluate (.mismatch p q)))) ∧
      (binary e "-" (integer 1)).evaluate t =
        .error (.failure (.evaluate (.mismatch p minusOne))) ∧
      (binary e "-" (integer 1)).HasMismatch t.dimension? p.dimension minusOne.dimension := by
  intro t u e p q minusOne
  have hp : e.evaluate t = .ok p := by decide +kernel
  have hq : e.evaluate u = .ok q := by decide +kernel
  have hmismatch : (binary e "-" (integer 1)).evaluate t =
      .error (.failure (.evaluate (.mismatch p minusOne))) := by decide +kernel
  have hunits : ∀ symbol, u.dimension? symbol = t.dimension? symbol := by
    intro symbol
    simp only [t, u, UnitTable.dimension?, UnitTable.get?, List.lookup_cons, List.lookup_nil]
    cases symbol == "m" <;> simp [Quantity.ofBaseUnit]
  obtain ⟨hsome, -, hnever, hsame⟩ := evaluate_sound t e
  exact ⟨⟨hp, hq, hsame u hunits p q hp hq⟩, ⟨hsome p hp, hnever _ (hsome p hp)⟩, hmismatch,
    (evaluate_sound t (binary e "-" (integer 1))).2.1 p minusOne hmismatch⟩

end Expr

end UnitCalc
