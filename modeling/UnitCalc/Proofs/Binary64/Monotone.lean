import Mathlib.Algebra.Order.Field.Rat
import Mathlib.Data.Nat.Log
import Mathlib.Tactic.NormNum
import UnitCalc.Proofs.Binary64.Rounding

/-!
# Rounding is monotone

A larger ratio has no smaller rank. Within a binade this is so for rounded quotients, and the ranks
of a binade are at most the first rank of the next one (`nearestRank_bounds`).

Hence the ratios that round to one rank are an interval, which the number of the rank itself belongs
to. Comparisons of ratios are made in `ℚ`, where `magnitude r` is the number of a rank.
-/

namespace UnitCalc

namespace Binary64

variable {num num' den den' b b' k : Nat}

/-! ## Ratios with one denominator -/

theorem roundDiv_mono (h : num ≤ num') : roundDiv num den ≤ roundDiv num' den := by
  have hdiv : num / den ≤ num' / den := Nat.div_le_div_right h
  rcases Nat.lt_or_eq_of_le hdiv with hlt | heq
  · exact (roundDiv_le num den).trans (Nat.le_trans hlt (div_le_roundDiv num' den))
  · -- with equal whole parts the remainders compare as the numerators do
    have hnum := Nat.div_add_mod num den
    have hnum' := Nat.div_add_mod num' den
    rw [← heq] at hnum'
    unfold roundDiv
    dsimp only
    rw [← heq]
    split_ifs <;> omega

/-- The ranks of a binade are at most the first one of the next. -/
theorem nearestRank_le (hd : 0 < den) (hb : Nat.log2 (num / den) - 52 = b) :
    nearestRank num den ≤ 2 ^ 52 * (b + 2) := by
  rcases Nat.lt_or_ge (num / den) (2 ^ 52) with hsmall | hlarge
  · have hround := roundDiv_le num (den * 2 ^ b)
    have hdiv : num / (den * 2 ^ b) ≤ num / den :=
      Nat.div_le_div_left (Nat.le_mul_of_pos_right den (Nat.two_pow_pos b)) hd
    simp only [nearestRank, hb]
    omega
  · exact (nearestRank_bounds hd hlarge hb).2.2.2

theorem log2_mono {m n : Nat} (h : m ≤ n) : Nat.log2 m ≤ Nat.log2 n := by
  rw [Nat.log2_eq_log_two, Nat.log2_eq_log_two]
  exact Nat.log_mono_right h

theorem nearestRank_mono (hd : 0 < den) (h : num ≤ num') :
    nearestRank num den ≤ nearestRank num' den := by
  obtain ⟨b, hb⟩ : ∃ b, Nat.log2 (num / den) - 52 = b := ⟨_, rfl⟩
  obtain ⟨b', hb'⟩ : ∃ b', Nat.log2 (num' / den) - 52 = b' := ⟨_, rfl⟩
  have hlog := log2_mono (Nat.div_le_div_right (c := den) h)
  rcases Nat.lt_trichotomy b b' with hlt | rfl | hgt
  · -- the next binade begins where this one ends
    have hlarge : 2 ^ 52 ≤ num' / den := by
      refine (Nat.le_log2 fun h0 ↦ ?_).mp (by omega)
      rw [h0, show Nat.log2 0 = 0 from rfl] at hb'
      omega
    have hmin := (nearestRank_bounds hd hlarge hb').2.2.1
    have hmax := nearestRank_le hd hb
    omega
  · unfold nearestRank
    dsimp only
    rw [hb, hb']
    exact Nat.add_le_add_left (roundDiv_mono h) _
  · omega

/-- A larger rank has no fewer quanta. -/
theorem quanta_mono {r r' : Nat} (h : r ≤ r') : quanta r ≤ quanta r' := by
  by_contra hlt
  have hle := nearestRank_mono Nat.one_pos (Nat.le_of_lt (Nat.not_le.mp hlt))
  rw [nearestRank_quanta, nearestRank_quanta] at hle
  rw [Nat.le_antisymm h hle] at hlt
  exact hlt (Nat.le_refl _)

theorem nearestRank_unit : nearestRank unit 1 = oneRank := by
  rw [← quanta_one, nearestRank_quanta]

/-! ## Ratios in general -/

theorem nearestRank_le_of_div_le (hd : 0 < den) (hd' : 0 < den')
    (h : (num : ℚ) / den ≤ num' / den') : nearestRank num den ≤ nearestRank num' den' := by
  have hcross : num * den' ≤ num' * den := by
    rw [div_le_div_iff₀ (Nat.cast_pos.mpr hd) (Nat.cast_pos.mpr hd')] at h
    exact_mod_cast h
  rw [← nearestRank_mul_right num den hd', ← nearestRank_mul_right num' den' hd, Nat.mul_comm den']
  exact nearestRank_mono (Nat.mul_pos hd hd') hcross

/-- The number of a rank. -/
def magnitude (r : Nat) : ℚ := quanta r / unit

theorem magnitude_zero : magnitude 0 = 0 := by
  rw [magnitude, quanta_eq_zero_iff.mpr rfl, Nat.cast_zero, zero_div]

theorem unit_mul_magnitude (r : Nat) : unit * magnitude r = quanta r :=
  mul_div_cancel₀ _ (Nat.cast_ne_zero.mpr unit_pos.ne')

/-! ## Exact whole numbers of quanta -/

/-- A rank from its parts: a binade, and a significand that is full unless the binade is the lowest.
-/
theorem quanta_add {m : Nat} (hm : m < 2 ^ 53) (h : 2 ^ 52 ≤ m ∨ b = 0) :
    quanta (2 ^ 52 * b + m) = m * 2 ^ b := by
  have hsignificand : significand (2 ^ 52 * b + m) = m := by
    unfold significand
    split <;> omega
  have hbinade : binade (2 ^ 52 * b + m) = b := by
    unfold binade
    omega
  rw [quanta, hsignificand, hbinade]

/-- A number of quanta that the spacing of its binade divides is that of a rank. -/
theorem quanta_nearestRank_of_dvd (h : 2 ^ (Nat.log2 num - 52) ∣ num) :
    quanta (nearestRank num 1) = num := by
  obtain ⟨b, hb⟩ : ∃ b, Nat.log2 num - 52 = b := ⟨_, rfl⟩
  rw [hb] at h
  obtain ⟨m, rfl⟩ := h
  have hrank : nearestRank (2 ^ b * m) 1 = 2 ^ 52 * b + m := by
    unfold nearestRank
    dsimp only
    rw [Nat.div_one, hb, Nat.one_mul, Nat.mul_comm (2 ^ b), roundDiv_mul_left (Nat.two_pow_pos b)]
  have hpos := Nat.two_pow_pos b
  have hm : m < 2 ^ 53 := by
    have hlt : 2 ^ b * m < 2 ^ (53 + b) :=
      Nat.lt_log2_self.trans_le (Nat.pow_le_pow_right (by decide) (by omega))
    rw [Nat.add_comm, Nat.pow_add] at hlt
    exact Nat.lt_of_mul_lt_mul_left hlt
  have hfull : 2 ^ 52 ≤ m ∨ b = 0 := by
    rcases Nat.eq_zero_or_pos b with h0 | hb0
    · exact .inr h0
    · have hne : 2 ^ b * m ≠ 0 := by
        intro h0
        rw [h0, show Nat.log2 0 = 0 from rfl] at hb
        omega
      have hle : 2 ^ (52 + b) ≤ 2 ^ b * m :=
        (Nat.pow_le_pow_right (by decide) (by omega)).trans (Nat.log2_self_le hne)
      rw [Nat.add_comm, Nat.pow_add] at hle
      exact .inl (Nat.le_of_mul_le_mul_left hle hpos)
  rw [hrank, quanta_add hm hfull, Nat.mul_comm]

/-- A whole number that is a multiple of the spacing is the number of a rank: up to `2 ^ 53` every
one is, and up to `2 ^ 54` every even one. -/
theorem quanta_nearestRank_unit_mul {n : Nat} (hn : n < 2 ^ (53 + k)) (hk : 2 ^ k ∣ n) :
    quanta (nearestRank (unit * n) 1) = unit * n := by
  have hlog : Nat.log2 (unit * n) - 52 ≤ 1074 + k := by
    rcases Nat.eq_zero_or_pos (unit * n) with h0 | hpos
    · rw [h0]
      exact Nat.zero_le _
    · have hlt : unit * n < 2 ^ (1127 + k) := by
        have := Nat.mul_lt_mul_of_pos_left hn unit_pos
        rwa [Nat.mul_comm unit (2 ^ _), two_pow_mul_unit,
          show 53 + k + 1074 = 1127 + k from by omega] at this
      have := (Nat.log2_lt hpos.ne').mpr hlt
      omega
  refine quanta_nearestRank_of_dvd ((Nat.pow_dvd_pow 2 hlog).trans ?_)
  rw [Nat.add_comm, ← two_pow_mul_unit, Nat.mul_comm]
  exact Nat.mul_dvd_mul_left unit hk

end Binary64

end UnitCalc
