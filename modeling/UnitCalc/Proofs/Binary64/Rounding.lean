import UnitCalc.Proofs.Binary64.Range

/-!
# Numbers and the rounding of ratios

A rank is its significand, `2 ^ 52` ranks further on for each step of its binade (`rank_eq`). From
this equation follow bounds for the quanta of a rank, and that rounding is exact where nothing has
to be rounded: the quanta of a number round to the number itself (`nearestRank_quanta`). Rounding
depends on the ratio alone (`nearestRank_mul_right`), so a product with one is exact as well.
-/

namespace UnitCalc

namespace Binary64

variable {num den k r : Nat} {x : Binary64}

/-! ## Ranks and quanta -/

theorem significand_lt (r : Nat) : significand r < 2 ^ 53 := by
  unfold significand
  split <;> omega

/-- Outside the lowest ranks the significand is full. -/
theorem le_significand (h : 2 ^ 52 ≤ r) : 2 ^ 52 ≤ significand r := by
  unfold significand
  split <;> omega

theorem rank_eq (r : Nat) : 2 ^ 52 * binade r + significand r = r := by
  unfold binade significand
  split <;> omega

/-- The quanta of a rank are below the power of two after its binade. -/
theorem quanta_le (h : r < 2 ^ 52 * (k + 2)) : quanta r ≤ (2 ^ 53 - 1) * 2 ^ k := by
  have hbinade : binade r ≤ k := by
    unfold binade
    omega
  have hsignificand := significand_lt r
  exact Nat.mul_le_mul (by omega) (Nat.pow_le_pow_right (by decide) hbinade)

theorem quanta_lt (h : r < 2 ^ 52 * (k + 2)) : quanta r < 2 ^ (53 + k) := by
  have hle := quanta_le h
  have hpos := Nat.two_pow_pos k
  rw [Nat.pow_add]
  omega

theorem two_pow_le_quanta (h : 2 ^ 52 * (k + 1) ≤ r) : 2 ^ (52 + k) ≤ quanta r := by
  have hbinade : k ≤ binade r := by
    unfold binade
    omega
  calc 2 ^ (52 + k)
    _ = 2 ^ 52 * 2 ^ k := Nat.pow_add ..
    _ ≤ 2 ^ 52 * 2 ^ binade r := Nat.mul_le_mul_left _ (Nat.pow_le_pow_right (by decide) hbinade)
    _ ≤ quanta r := Nat.mul_le_mul_right _ (le_significand (by omega))

theorem quanta_eq_zero_iff : quanta r = 0 ↔ r = 0 := by
  constructor
  · intro h
    have hs : significand r = 0 :=
      (Nat.mul_eq_zero.mp h).resolve_right (Nat.two_pow_pos _).ne'
    have hr := rank_eq r
    have hlow : ¬2 ^ 52 ≤ r := fun hle ↦ by
      have := le_significand hle
      omega
    unfold binade at hr
    omega
  · rintro rfl
    rfl

theorem quanta_one : quanta oneRank = unit := by decide +kernel

theorem unit_pos : 0 < unit := by decide +kernel

theorem two_pow_mul_unit (k : Nat) : 2 ^ k * unit = 2 ^ (k + 1074) := by
  rw [unit, Nat.pow_add]

/-! ## Exact rounding -/

theorem roundDiv_mul_left (hd : 0 < den) : roundDiv (k * den) den = k := by
  simp [roundDiv, Nat.mul_div_cancel k hd, hd]

theorem roundDiv_mul_right (num den : Nat) (hk : 0 < k) :
    roundDiv (num * k) (den * k) = roundDiv num den := by
  have hrest : 2 * (num % den * k) = 2 * (num % den) * k := (Nat.mul_assoc ..).symm
  simp only [roundDiv, Nat.mul_div_mul_right _ _ hk, Nat.mul_mod_mul_right, hrest,
    Nat.mul_lt_mul_right hk]

/-- Rounding depends only on the ratio. -/
theorem nearestRank_mul_right (num den : Nat) (hk : 0 < k) :
    nearestRank (num * k) (den * k) = nearestRank num den := by
  unfold nearestRank
  dsimp only
  rw [Nat.mul_div_mul_right _ _ hk, Nat.mul_right_comm den, roundDiv_mul_right _ _ hk]

/-- The quanta of a rank have the logarithm that rounding finds its binade by. -/
theorem log2_quanta (r : Nat) : Nat.log2 (quanta r) - 52 = binade r := by
  rcases Nat.lt_or_ge r (2 ^ 52) with hlow | hhigh
  · have hbinade : binade r = 0 := by
      unfold binade
      omega
    have hquanta : quanta r < 2 ^ 52 := by
      have := rank_eq r
      rw [quanta, hbinade, Nat.pow_zero, Nat.mul_one]
      omega
    rcases Nat.eq_zero_or_pos (quanta r) with h0 | hpos
    · rw [h0, hbinade]
      rfl
    · have := (Nat.log2_lt (by omega)).mpr hquanta
      omega
  · have hpos : 0 < quanta r := Nat.mul_pos (by have := le_significand hhigh; omega)
      (Nat.two_pow_pos _)
    have hlog : Nat.log2 (quanta r) = 52 + binade r := by
      refine (Nat.log2_eq_iff hpos.ne').mpr ⟨?_, ?_⟩
      · rw [Nat.pow_add]
        exact Nat.mul_le_mul_right _ (le_significand hhigh)
      · rw [Nat.add_right_comm, Nat.pow_add]
        exact Nat.mul_lt_mul_of_pos_right (significand_lt r) (Nat.two_pow_pos _)
    omega

/-- The quanta of a rank round to the rank. -/
theorem nearestRank_quanta (r : Nat) : nearestRank (quanta r) 1 = r := by
  unfold nearestRank
  dsimp only
  rw [Nat.div_one, log2_quanta, Nat.one_mul, quanta, roundDiv_mul_left (Nat.two_pow_pos _), rank_eq]

/-- A ratio of at least a power of two has a rank in its binade or a later one. -/
theorem le_nearestRank_of_two_pow_le (h : 2 ^ (53 + k) ≤ num) :
    2 ^ 52 * (k + 2) ≤ nearestRank num 1 := by
  refine Nat.not_lt.mp fun hlt ↦ ?_
  rw [nearestRank_lt_iff Nat.one_pos, Nat.one_mul] at hlt
  rw [Nat.pow_add] at h
  omega

/-- A ratio of at least a power of two does not round below it. -/
theorem two_pow_le_quanta_nearestRank (h : 2 ^ (53 + k) ≤ num) :
    2 ^ (53 + k) ≤ quanta (nearestRank num 1) := by
  have hquanta := two_pow_le_quanta (k := k + 1) (le_nearestRank_of_two_pow_le h)
  rwa [Nat.add_comm k 1, ← Nat.add_assoc] at hquanta

theorem ofQuanta_quanta (s : Bool) (a : Fin rankBound) : ofQuanta s (quanta a) 1 = finite s a := by
  rw [ofQuanta, nearestRank_quanta, ofRank_of_lt s a.isLt]

/-! ## Products and quotients with one -/

theorem mul_finite (s t : Bool) (a b : Fin rankBound) :
    finite s a * finite t b = ofQuanta (s ^^ t) (quanta a * quanta b) unit := by
  change mul _ _ = _
  rw [mul]

theorem neg_finite (s : Bool) (a : Fin rankBound) : -finite s a = finite (!s) a := rfl

/-- A product with one or minus one is exact. -/
theorem mul_one_eq (x : Binary64) (s : Bool) : x * one s = if s then -x else x := by
  cases x with
  | nan => cases s <;> rfl
  | infinite t => cases s <;> cases t <;> rfl
  | finite t a =>
    have hscale := nearestRank_mul_right (quanta a) 1 unit_pos
    rw [Nat.one_mul, nearestRank_quanta] at hscale
    rw [one, mul_finite, quanta_one, ofQuanta, hscale, ofRank_of_lt _ a.isLt, neg_finite]
    cases s
    · rw [Bool.xor_false, if_neg Bool.false_ne_true]
    · rw [Bool.xor_true, if_pos rfl]

theorem one_div_finite {t : Bool} {b : Fin rankBound} (hb : b.val ≠ 0) :
    one false / finite t b = ofQuanta t (unit * unit) (quanta b) := by
  have hdiv : one false / finite t b =
      ofQuanta (false ^^ t) (unit * quanta oneRank) (quanta b) := by
    rw [one]
    change div _ _ = _
    rw [div, if_neg hb]
  rw [hdiv, Bool.false_xor, quanta_one]

/-! ## Equal numbers -/

theorem sameNumber_finite {s t : Bool} {a : Fin rankBound} (h : s = t ∨ a.val = 0) :
    (finite s a).sameNumber (finite t a) = true := by
  simpa [sameNumber] using h

/-- The same number as a finite one differs at most in the sign of zero. -/
theorem sameNumber_finite_left_iff {s : Bool} {a : Fin rankBound} {y : Binary64} :
    (finite s a).sameNumber y = true ↔ ∃ t, y = finite t a ∧ (s = t ∨ a.val = 0) := by
  cases y with
  | nan => simp [sameNumber]
  | infinite t => simp [sameNumber]
  | finite t b =>
    simp only [sameNumber, Bool.and_eq_true, beq_iff_eq, Bool.or_eq_true, finite.injEq]
    constructor
    · rintro ⟨rfl, h⟩
      exact ⟨t, ⟨rfl, rfl⟩, h⟩
    · rintro ⟨u, ⟨rfl, rfl⟩, h⟩
      exact ⟨rfl, h⟩

/-- Numbers that are the same as a finite one are the same. -/
theorem sameNumber_of_finite {s : Bool} {a : Fin rankBound} {x y : Binary64}
    (hx : (finite s a).sameNumber x = true) (hy : (finite s a).sameNumber y = true) :
    x.sameNumber y = true := by
  obtain ⟨t, rfl, ht⟩ := sameNumber_finite_left_iff.mp hx
  obtain ⟨u, rfl, hu⟩ := sameNumber_finite_left_iff.mp hy
  refine sameNumber_finite ?_
  rcases ht with rfl | hzero
  · exact hu
  · exact .inr hzero

/-! ## Whole numbers -/

/-- A number without a fractional part is the one nearest to its own value. Zeros lose their sign.
-/
theorem exists_ofInt?_truncate (h : x.isIntegral = true) :
    ∃ y, ofInt? x.truncate = some y ∧ y.sameNumber x = true := by
  cases x with
  | nan => cases h
  | infinite => cases h
  | finite s a =>
    have hdvd : unit * (quanta a / unit) = quanta a :=
      Nat.mul_div_cancel' (Nat.dvd_of_mod_eq_zero (beq_iff_eq.mp h))
    obtain ⟨whole, hwhole⟩ : ∃ whole, whole = quanta a / unit := ⟨_, rfl⟩
    have htruncate : truncate (finite s a) = if s then -(whole : Int) else whole := by
      rw [truncate, hwhole]
    rw [← hwhole] at hdvd
    have habs : (truncate (finite s a)).natAbs = whole := by
      rw [htruncate]
      split <;> omega
    refine ⟨finite (decide (truncate (finite s a) < 0)) a, ?_, sameNumber_finite ?_⟩
    · unfold ofInt?
      rw [habs, hdvd, ofQuanta_quanta]
    · rw [htruncate, ← quanta_eq_zero_iff, ← hdvd]
      cases s
      · left
        simp
      · rcases Nat.eq_zero_or_pos whole with h0 | hpos
        · right
          rw [h0, Nat.mul_zero]
        · left
          simpa using hpos

end Binary64

end UnitCalc
