import Mathlib.Tactic.NormNum
import UnitCalc.Binary64.Basic

/-!
# Where rounding overflows

A ratio rounds to a finite magnitude exactly below the midpoint between the last finite magnitude
and the next power of two, `(2 ^ 54 - 1) * 2 ^ 2044` quanta or `2 ^ 1024 - 2 ^ 970`; the midpoint
itself has an odd neighbour below it and overflows. For whole numbers and powers of ten this says
which of them are binary64 numbers at all.
-/

namespace UnitCalc

namespace Binary64

variable {num den : Nat}

/-! ## Rounded quotients -/

theorem div_le_roundDiv (num den : Nat) : num / den ≤ roundDiv num den := by
  unfold roundDiv
  dsimp only
  split
  · exact Nat.le_refl _
  · split <;> omega

theorem roundDiv_le (num den : Nat) : roundDiv num den ≤ num / den + 1 := by
  unfold roundDiv
  dsimp only
  split
  · omega
  · split <;> omega

/-- A quotient rounds below an even number exactly if it is below the midpoint before it. -/
theorem roundDiv_lt_iff {m : Nat} (hd : 0 < den) (hm : m % 2 = 0) :
    roundDiv num den < m ↔ 2 * num + den < 2 * (m * den) := by
  have hnum : den * (num / den) + num % den = num := Nat.div_add_mod num den
  have hrest : num % den < den := Nat.mod_lt num hd
  have hlow := div_le_roundDiv num den
  have hhigh := roundDiv_le num den
  rcases Nat.lt_trichotomy (num / den + 1) m with hlt | heq | hgt
  · have hmul : den * (num / den + 2) ≤ m * den := by
      rw [Nat.mul_comm m]
      exact Nat.mul_le_mul_left den hlt
    rw [Nat.mul_add] at hmul
    exact iff_of_true (by omega) (by omega)
  · -- the neighbour below is odd, so the midpoint goes up
    have hmul : m * den = den * (num / den) + den := by rw [← heq, Nat.mul_comm, Nat.mul_succ]
    unfold roundDiv
    dsimp only
    split
    · exact iff_of_true (by omega) (by omega)
    · split
      · exact iff_of_false (by omega) (by omega)
      · exact iff_of_false (by omega) (by omega)
  · have hmul : m * den ≤ den * (num / den) := by
      rw [Nat.mul_comm m]
      exact Nat.mul_le_mul_left den (by omega)
    exact iff_of_false (by omega) (by omega)

/-! ## Ratios -/

/-- A ratio of at least `2 ^ 52` quanta lies between powers of two with the exponent of its binade,
and so does its rank. -/
theorem nearestRank_bounds {b : Nat} (hd : 0 < den) (hq : 2 ^ 52 ≤ num / den)
    (hb : Nat.log2 (num / den) - 52 = b) :
    2 ^ 52 * (den * 2 ^ b) ≤ num ∧ num < 2 ^ 53 * (den * 2 ^ b) ∧
      2 ^ 52 * (b + 1) ≤ nearestRank num den ∧ nearestRank num den ≤ 2 ^ 52 * (b + 2) := by
  have hne : num / den ≠ 0 := by omega
  have hlog : 52 ≤ Nat.log2 (num / den) := (Nat.le_log2 hne).mpr hq
  have hlow : 2 ^ Nat.log2 (num / den) ≤ num / den := Nat.log2_self_le hne
  have hhigh : num / den < 2 ^ (Nat.log2 (num / den) + 1) := Nat.lt_log2_self
  rw [show Nat.log2 (num / den) = 52 + b from by omega] at hlow hhigh
  have hpos : 0 < den * 2 ^ b := Nat.mul_pos hd (Nat.two_pow_pos b)
  have hdiv : num / (den * 2 ^ b) = num / den / 2 ^ b := (Nat.div_div_eq_div_mul _ _ _).symm
  have hge : 2 ^ 52 ≤ num / (den * 2 ^ b) := by
    rw [hdiv, Nat.le_div_iff_mul_le (Nat.two_pow_pos b), ← Nat.pow_add]
    exact hlow
  have hlt : num / (den * 2 ^ b) < 2 ^ 53 := by
    rw [hdiv, Nat.div_lt_iff_lt_mul (Nat.two_pow_pos b), ← Nat.pow_add]
    rwa [show 52 + b + 1 = 53 + b from by omega] at hhigh
  have hr := div_le_roundDiv num (den * 2 ^ b)
  have hr' := roundDiv_le num (den * 2 ^ b)
  refine ⟨(Nat.le_div_iff_mul_le hpos).mp hge, (Nat.div_lt_iff_lt_mul hpos).mp hlt, ?_, ?_⟩
  all_goals
    simp only [nearestRank, hb]
    omega

/-- The ranks up to a binade belong to the ratios below the midpoint before the next one. -/
theorem nearestRank_lt_iff (hd : 0 < den) (k : Nat) :
    nearestRank num den < 2 ^ 52 * (k + 2) ↔ 2 * num + den * 2 ^ k < 2 ^ 54 * (den * 2 ^ k) := by
  have hle : den ≤ den * 2 ^ k := Nat.le_mul_of_pos_right den (Nat.two_pow_pos k)
  rcases Nat.lt_or_ge (num / den) (2 ^ 52) with hsmall | hlarge
  · -- in the lowest binade the rank is the rounded quotient itself
    have hnum : num < 2 ^ 52 * den := (Nat.div_lt_iff_lt_mul hd).mp hsmall
    have hlog : Nat.log2 (num / den) - 52 = 0 := by
      rcases Nat.eq_zero_or_pos (num / den) with h0 | hpos
      · rw [h0]
        rfl
      · have := (Nat.log2_lt (by omega)).mpr hsmall
        omega
    have hr := roundDiv_le num (den * 2 ^ 0)
    rw [Nat.pow_zero, Nat.mul_one] at hr
    have hrank : nearestRank num den ≤ 2 ^ 52 := by
      simp only [nearestRank, hlog, Nat.pow_zero, Nat.mul_one]
      omega
    exact iff_of_true (by omega) (by omega)
  · obtain ⟨hlow, hhigh, hmin, hmax⟩ := nearestRank_bounds hd hlarge rfl
    generalize hb : Nat.log2 (num / den) - 52 = b at hlow hhigh hmin hmax
    rcases Nat.lt_trichotomy b k with hlt | rfl | hgt
    · have hmul : den * 2 ^ (b + 1) ≤ den * 2 ^ k :=
        Nat.mul_le_mul_left den (Nat.pow_le_pow_right (by decide) hlt)
      rw [Nat.pow_succ, ← Nat.mul_assoc] at hmul
      exact iff_of_true (by omega) (by omega)
    · -- in the binade of the bound the rounding decides
      have hround : roundDiv num (den * 2 ^ b) < 2 ^ 53 ↔ _ :=
        roundDiv_lt_iff (Nat.mul_pos hd (Nat.two_pow_pos b)) (by decide)
      simp only [nearestRank, hb]
      omega
    · have hmul : den * 2 ^ (k + 1) ≤ den * 2 ^ b :=
        Nat.mul_le_mul_left den (Nat.pow_le_pow_right (by decide) hgt)
      rw [Nat.pow_succ, ← Nat.mul_assoc] at hmul
      exact iff_of_false (by omega) (by omega)

/-! ## Whole numbers -/

/-- Halving the quanta and the midpoint alike. -/
private theorem two_mul_lt_iff {n p q : Nat} (hp : 0 < p) :
    2 * (p * n) + 2 * p * q < 2 ^ 54 * (2 * p * q) ↔ n < 2 ^ 54 * q - q := by
  have hleft : 2 * (p * n) + 2 * p * q = 2 * p * (n + q) := by
    rw [← Nat.mul_assoc, ← Nat.mul_add]
  have hright : 2 ^ 54 * (2 * p * q) = 2 * p * (2 ^ 54 * q) := Nat.mul_left_comm ..
  rw [hleft, hright, Nat.mul_lt_mul_left (by omega)]
  omega

theorem nearestRank_unit_mul_lt_iff {n : Nat} :
    nearestRank (unit * n) 1 < rankBound ↔ n < overflowThreshold := by
  have hbound : rankBound = 2 ^ 52 * (2045 + 2) := by decide
  have hquanta : 1 * 2 ^ 2045 = 2 * unit * 2 ^ 970 := by decide +kernel
  have hmax : overflowThreshold = 2 ^ 54 * 2 ^ 970 - 2 ^ 970 := by decide +kernel
  have hunit : 0 < unit := by decide +kernel
  rw [hbound, nearestRank_lt_iff Nat.one_pos, hquanta, hmax]
  exact two_mul_lt_iff hunit

theorem ofInt?_natCast (n : Nat) :
    ofInt? n = if n < overflowThreshold then some (ofRatio n 1) else none := by
  have hsign : decide ((n : Int) < 0) = false := by simp
  unfold ofInt? ofRatio ofQuanta
  simp only [hsign, Int.natAbs_natCast]
  by_cases h : nearestRank (unit * n) 1 < rankBound
  · simp only [ofRank_of_lt false h, if_pos (nearestRank_unit_mul_lt_iff.mp h)]
  · simp only [ofRank, dif_neg h, if_neg (h ∘ nearestRank_unit_mul_lt_iff.mpr)]

theorem ofInt?_eq_none_iff {n : Int} : ofInt? n = none ↔ overflowThreshold ≤ n.natAbs := by
  rw [← Nat.not_lt, ← nearestRank_unit_mul_lt_iff]
  unfold ofInt? ofQuanta
  by_cases h : nearestRank (unit * n.natAbs) 1 < rankBound
  · simp [ofRank_of_lt _ h, h]
  · simp [ofRank, h]

theorem exists_ofInt?_of_lt {n : Int} (hn : n.natAbs < overflowThreshold) :
    ∃ x, ofInt? n = some x :=
  Option.ne_none_iff_exists'.mp fun h ↦ Nat.not_le.mpr hn (ofInt?_eq_none_iff.mp h)

/-- The powers of ten that are whole binary64 numbers. -/
theorem ten_pow_lt_iff {k : Nat} : 10 ^ k < overflowThreshold ↔ k ≤ 308 := by
  have hlow : 10 ^ 308 < overflowThreshold := by decide +kernel
  have hhigh : overflowThreshold ≤ 10 ^ 309 := by decide +kernel
  constructor
  · intro h
    have hlt : k < 309 := (Nat.pow_lt_pow_iff_right (by decide)).mp (h.trans_le hhigh)
    omega
  · intro hk
    exact Nat.lt_of_le_of_lt (Nat.pow_le_pow_right (by decide) hk) hlow

theorem overflowThreshold_le_ten_pow {k : Nat} (hk : 308 < k) : overflowThreshold ≤ 10 ^ k :=
  Nat.not_lt.mp fun h ↦ Nat.not_le.mpr hk (ten_pow_lt_iff.mp h)

end Binary64

end UnitCalc
