import UnitCalc.Binary64.Power
import UnitCalc.Proofs.Binary64.Rounding

/-!
# When results are finite

Sums and products of finite numbers may overflow to infinity but are never NaN, and neither are the
powers of any platform. So for finite operands it is enough to look for infinity.

For results that are known to be small we bound the number of quanta instead: `IsBelow x k` says
that the magnitude of `x` is less than `2 ^ k` quanta. Rounding may double such a bound, which does
no harm far below the overflow.
-/

namespace UnitCalc

namespace Binary64

variable {num den k m n : Nat} {x y z : Binary64} {s t : Bool} {a b : Fin rankBound}

theorem isFinite_iff_exists : x.isFinite = true ↔ ∃ s a, x = finite s a := by
  cases x <;> simp [isFinite]

/-! ## Sums and products -/

theorem add_finite (s t : Bool) (a b : Fin rankBound) : finite s a + finite t b =
    if signedQuanta s a + signedQuanta t b = 0 then zero (s && t)
    else ofQuanta (decide (signedQuanta s a + signedQuanta t b < 0))
      (signedQuanta s a + signedQuanta t b).natAbs 1 := by
  change add _ _ = _
  rw [add]

theorem isFinite_zero (s : Bool) : (zero s).isFinite = true := rfl

theorem isFinite_one (s : Bool) : (one s).isFinite = true := rfl

theorem isFinite_ofRank (h : (ofRank s n).isInfinite = false) : (ofRank s n).isFinite = true :=
  isFinite_iff.mpr ⟨h, ofRank_ne_nan s n⟩

theorem isFinite_ofRank_iff : (ofRank s n).isFinite = true ↔ n < rankBound := by
  unfold ofRank
  split
  · next h => exact iff_of_true rfl h
  · next h => exact iff_of_false Bool.false_ne_true h

theorem isFinite_mul (hx : x.isFinite = true) (hy : y.isFinite = true)
    (h : (x * y).isInfinite = false) : (x * y).isFinite = true := by
  obtain ⟨s, a, rfl⟩ := isFinite_iff_exists.mp hx
  obtain ⟨t, b, rfl⟩ := isFinite_iff_exists.mp hy
  rw [mul_finite] at h ⊢
  exact isFinite_ofRank h

/-- The other factor of a finite product is finite. -/
theorem isFinite_of_mul (hx : x.isFinite = true) (h : (x * y).isFinite = true) :
    y.isFinite = true := by
  obtain ⟨s, a, rfl⟩ := isFinite_iff_exists.mp hx
  cases y with
  | finite => rfl
  | nan => cases h
  | infinite t =>
    have hmul : finite s a * infinite t = if a.val = 0 then nan else infinite (s ^^ t) := rfl
    rw [hmul] at h
    split at h <;> cases h

theorem isFinite_add (hx : x.isFinite = true) (hy : y.isFinite = true)
    (h : (x + y).isInfinite = false) : (x + y).isFinite = true := by
  obtain ⟨s, a, rfl⟩ := isFinite_iff_exists.mp hx
  obtain ⟨t, b, rfl⟩ := isFinite_iff_exists.mp hy
  rw [add_finite] at h ⊢
  by_cases htotal : signedQuanta s a + signedQuanta t b = 0
  · rw [if_pos htotal]
    exact isFinite_zero _
  · rw [if_neg htotal] at h ⊢
    exact isFinite_ofRank h

/-! ## Whole numbers -/

theorem isFinite_of_ofInt? {n : Int} (h : ofInt? n = some x) : x.isFinite = true := by
  unfold ofInt? at h
  split at h
  · cases h
    exact isFinite_finite _ _
  · cases h

/-! ## Powers -/

theorem isFinite_neg (hx : x.isFinite = true) : (-x).isFinite = true := by
  obtain ⟨s, a, rfl⟩ := isFinite_iff_exists.mp hx
  exact isFinite_finite _ a

section

variable [Platform]

/-- A power of the platform is finite unless it is an overflow. -/
theorem isFinite_of_finitePower (h : finitePower s a (finite t b) = .ok y) :
    y.isFinite = true := by
  have hnan := Platform.pow_ne_nan a b t
  unfold finitePower at h
  split at h
  · cases h
    exact isFinite_one s
  · cases hpow : Platform.pow (finite false a) (finite t b) with
    | nan => exact absurd hpow hnan
    | infinite u =>
      rw [hpow] at h
      cases h
    | finite u c =>
      rw [hpow] at h
      cases h
      split
      · exact isFinite_neg (isFinite_finite u c)
      · exact isFinite_finite u c

theorem isFinite_of_realPower (hx : x.isFinite = true) (hz : z.isFinite = true)
    (h : x.realPower z = .ok y) : y.isFinite = true := by
  obtain ⟨s, a, rfl⟩ := isFinite_iff_exists.mp hx
  obtain ⟨t, b, rfl⟩ := isFinite_iff_exists.mp hz
  simp only [realPower] at h
  split at h
  · cases h
    exact isFinite_one _
  split at h
  · split at h
    · cases h
    · cases h
      exact isFinite_zero _
  · exact isFinite_of_finitePower h

/-- A power of a finite number is finite. -/
theorem isFinite_of_power {n : Int} (hx : x.isFinite = true) (h : x.power n = .ok y) :
    y.isFinite = true := by
  unfold power at h
  split at h
  · cases h
  · next z hz => exact isFinite_of_realPower hx (isFinite_of_ofInt? hz) h

end

/-! ## Small numbers -/

/-- The number is finite, and its magnitude is less than `2 ^ k` quanta. -/
def IsBelow (x : Binary64) (k : Nat) : Prop := ∃ s a, x = finite s a ∧ quanta a < 2 ^ k

theorem IsBelow.mono (h : x.IsBelow m) (hmn : m ≤ n) : x.IsBelow n := by
  obtain ⟨s, a, rfl, ha⟩ := h
  exact ⟨s, a, rfl, ha.trans_le (Nat.pow_le_pow_right (by decide) hmn)⟩

theorem isBelow_ofQuanta (s : Bool) (hd : 0 < den) (hk : k ≤ 2045) (h : num < 2 ^ (52 + k) * den) :
    (ofQuanta s num den).IsBelow (53 + k) := by
  have hrank : nearestRank num den < 2 ^ 52 * (k + 2) := by
    rw [nearestRank_lt_iff hd]
    have hpos : 0 < den * 2 ^ k := Nat.mul_pos hd (Nat.two_pow_pos k)
    rw [Nat.pow_add, Nat.mul_assoc, Nat.mul_comm _ den] at h
    omega
  have hbound : nearestRank num den < rankBound := by
    unfold rankBound
    omega
  exact ⟨s, ⟨_, hbound⟩, ofRank_of_lt s hbound, quanta_lt hrank⟩

theorem IsBelow.mul (hx : x.IsBelow m) (hy : y.IsBelow n) (hk : k ≤ 2045)
    (hmn : m + n ≤ 52 + k + 1074) : (x * y).IsBelow (53 + k) := by
  obtain ⟨s, a, rfl, ha⟩ := hx
  obtain ⟨t, b, rfl, hb⟩ := hy
  rw [mul_finite]
  refine isBelow_ofQuanta _ unit_pos hk ?_
  calc quanta a * quanta b
    _ < 2 ^ m * 2 ^ n := Nat.mul_lt_mul'' ha hb
    _ = 2 ^ (m + n) := (Nat.pow_add ..).symm
    _ ≤ 2 ^ (52 + k + 1074) := Nat.pow_le_pow_right (by decide) hmn
    _ = 2 ^ (52 + k) * unit := (two_pow_mul_unit _).symm

theorem natAbs_signedQuanta (s : Bool) (r : Nat) : (signedQuanta s r).natAbs = quanta r := by
  cases s
  · rfl
  · exact Int.natAbs_neg _

/-- Half the spacing of the numbers of a binade does not lead out of it. -/
theorem nearestRank_lt_of_le_add {r : Nat} (hr : r < 2 ^ 52 * (k + 1 + 2)) (hn : n < 2 ^ k)
    (h : num ≤ quanta r + n) : nearestRank num 1 < 2 ^ 52 * (k + 1 + 2) := by
  have hquanta := quanta_le hr
  rw [nearestRank_lt_iff Nat.one_pos, Nat.one_mul]
  rw [Nat.pow_succ'] at hquanta ⊢
  omega

/-- Adding a number below half the spacing of the largest numbers does not overflow. -/
theorem isFinite_add_of_isBelow (hx : x.isFinite = true) (hy : y.IsBelow 2044) :
    (x + y).isFinite = true := by
  obtain ⟨s, a, rfl⟩ := isFinite_iff_exists.mp hx
  obtain ⟨t, b, rfl, hb⟩ := hy
  rw [add_finite]
  by_cases htotal : signedQuanta s a + signedQuanta t b = 0
  · rw [if_pos htotal]
    exact isFinite_zero _
  · have hsum : (signedQuanta s a + signedQuanta t b).natAbs ≤ quanta a + quanta b := by
      have := Int.natAbs_add_le (signedQuanta s a) (signedQuanta t b)
      rwa [natAbs_signedQuanta, natAbs_signedQuanta] at this
    have ha : a.val < 2 ^ 52 * (2044 + 1 + 2) := a.isLt
    have hrank := nearestRank_lt_of_le_add ha hb hsum
    rw [if_neg htotal, ofQuanta, ofRank_of_lt _ hrank, isFinite_finite]

end Binary64

end UnitCalc
