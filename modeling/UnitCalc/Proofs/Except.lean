/-!
# Computations in sequence

What a sequence of two computations ends in, for the proofs that follow a run step by step.
-/

namespace UnitCalc

variable {ε α β σ : Type} {m : Except ε α} {k : α → Except ε β} {b : β} {error : ε}

theorem ok_bind (a : α) (k : α → Except ε β) : Except.ok a >>= k = k a := rfl

theorem bind_eq_ok_iff : m >>= k = .ok b ↔ ∃ a, m = .ok a ∧ k a = .ok b := by
  constructor
  · intro h
    match m, h with
    | .ok a, h => exact ⟨a, rfl, h⟩
  · rintro ⟨a, rfl, h⟩
    exact h

/-- A sequence fails in its first part or, after it, in its second. -/
theorem bind_eq_error_iff :
    m >>= k = .error error ↔ m = .error error ∨ ∃ a, m = .ok a ∧ k a = .error error := by
  constructor
  · intro h
    match m, h with
    | .ok a, h => exact .inr ⟨a, rfl, h⟩
    | .error _, h =>
      cases h
      exact .inl rfl
  · rintro (rfl | ⟨a, rfl, h⟩)
    · rfl
    · exact h

/-- A sequence of steps fails in one of them, all those before it being done. -/
theorem foldlM_eq_error_iff {step : σ → α → Except ε σ} {xs : List α} {s : σ} :
    xs.foldlM step s = .error error ↔ ∃ before x after s', xs = before ++ x :: after ∧
      before.foldlM step s = .ok s' ∧ step s' x = .error error := by
  induction xs generalizing s with
  | nil => exact iff_of_false nofun (by simp)
  | cons x xs ih =>
    rw [List.foldlM_cons, bind_eq_error_iff]
    constructor
    · rintro (h | ⟨s₁, h₁, h⟩)
      · exact ⟨[], x, xs, s, rfl, rfl, h⟩
      · obtain ⟨before, y, after, s', rfl, hb, hy⟩ := ih.mp h
        refine ⟨x :: before, y, after, s', rfl, ?_, hy⟩
        rw [List.foldlM_cons, h₁]
        exact hb
    · rintro ⟨before, y, after, s', hxs, hb, hy⟩
      match before with
      | [] =>
        cases hxs
        cases hb
        exact .inl hy
      | z :: before =>
        cases hxs
        obtain ⟨s₁, h₁, hb⟩ := bind_eq_ok_iff.mp hb
        exact .inr ⟨s₁, h₁, ih.mpr ⟨before, y, after, s', rfl, hb, hy⟩⟩

end UnitCalc
