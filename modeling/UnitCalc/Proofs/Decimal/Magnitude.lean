import Mathlib.Data.List.DropRight
import Mathlib.Tactic.Ring
import UnitCalc.Decimal.Basic
import UnitCalc.Proofs.Binary64.Monotone

/-!
# The magnitudes of decimals

A decimal has the magnitude `coefficient * 10 ^ exponent` in `ℚ`. Its rank depends on the magnitude
alone and grows with it, so the decimals of one rank are those of an interval of magnitudes
(`nearestRank_between`).

The decimal exponent of a magnitude is found by counting digits (`ten_zpow_order`), and so is
that of a decimal (`ten_zpow_leadingExponent`).
-/

namespace UnitCalc

namespace Decimal

open Binary64 (unit quanta unit_pos)

variable {c c' n r : Nat} {e e' : Int} {d : Decimal}

/-! ## Magnitude and rank -/

/-- The magnitude of a decimal. -/
def magnitude (c : Nat) (e : Int) : ℚ := c * 10 ^ e

theorem ten_zpow_pos (e : Int) : (0 : ℚ) < 10 ^ e := zpow_pos (by norm_num) e

theorem magnitude_zero_right (c : Nat) : magnitude c 0 = c := by
  rw [magnitude, zpow_zero, mul_one]

theorem magnitude_one (e : Int) : magnitude 1 e = 10 ^ e := by
  rw [magnitude, Nat.cast_one, one_mul]

theorem magnitude_zero_left (e : Int) : magnitude 0 e = 0 := by
  rw [magnitude, Nat.cast_zero, zero_mul]

theorem magnitude_pos_iff : 0 < magnitude c e ↔ 0 < c := by
  rw [magnitude, mul_pos_iff_of_pos_right (ten_zpow_pos e), Nat.cast_pos]

theorem magnitude_le_magnitude_iff : magnitude c e ≤ magnitude c' e ↔ c ≤ c' := by
  rw [magnitude, magnitude, mul_le_mul_iff_of_pos_right (ten_zpow_pos e), Nat.cast_le]

/-- A power of ten in the coefficient is one in the exponent. -/
theorem magnitude_ten_pow_mul (k c : Nat) (e : Int) :
    magnitude (10 ^ k * c) e = magnitude c (k + e) := by
  rw [magnitude, magnitude, zpow_add₀ (by norm_num), zpow_natCast, Nat.cast_mul, Nat.cast_pow,
    Nat.cast_ofNat, mul_comm (10 ^ k : ℚ), mul_assoc]

theorem magnitude_ten_pow (k : Nat) (e : Int) : magnitude (10 ^ k) e = 10 ^ (k + e) := by
  rw [← magnitude_one, ← magnitude_ten_pow_mul, Nat.mul_one]

theorem ten_zpow_eq_div (e : Int) : (10 : ℚ) ^ e = 10 ^ e.toNat / 10 ^ (-e).toNat := by
  rw [eq_div_iff (by positivity), ← zpow_natCast, ← zpow_natCast, ← zpow_add₀ (by norm_num)]
  congr 1
  omega

/-- The ratio that a decimal is rounded as. -/
theorem magnitude_eq_div (c : Nat) (e : Int) :
    ((unit * (c * 10 ^ e.toNat) : Nat) : ℚ) / ((10 ^ (-e).toNat : Nat) : ℚ) =
      unit * magnitude c e := by
  rw [magnitude, ten_zpow_eq_div]
  push_cast
  ring

theorem nearestRank_mono (h : magnitude c e ≤ magnitude c' e') :
    nearestRank c e ≤ nearestRank c' e' := by
  refine Binary64.nearestRank_le_of_div_le (Nat.pow_pos (by decide)) (Nat.pow_pos (by decide)) ?_
  rw [magnitude_eq_div, magnitude_eq_div]
  exact mul_le_mul_of_nonneg_left h (Nat.cast_nonneg unit)

theorem nearestRank_congr (h : magnitude c e = magnitude c' e') :
    nearestRank c e = nearestRank c' e' :=
  (nearestRank_mono h.le).antisymm (nearestRank_mono h.ge)

/-- A magnitude up to the number of a rank has no larger rank. -/
theorem nearestRank_le (h : magnitude c e ≤ Binary64.magnitude r) : nearestRank c e ≤ r := by
  rw [← Binary64.nearestRank_quanta r]
  refine Binary64.nearestRank_le_of_div_le (Nat.pow_pos (by decide)) Nat.one_pos ?_
  rw [magnitude_eq_div, Nat.cast_one, div_one, ← Binary64.unit_mul_magnitude]
  exact mul_le_mul_of_nonneg_left h (Nat.cast_nonneg unit)

theorem le_nearestRank (h : Binary64.magnitude r ≤ magnitude c e) : r ≤ nearestRank c e := by
  rw [← Binary64.nearestRank_quanta r]
  refine Binary64.nearestRank_le_of_div_le Nat.one_pos (Nat.pow_pos (by decide)) ?_
  rw [magnitude_eq_div, Nat.cast_one, div_one, ← Binary64.unit_mul_magnitude]
  exact mul_le_mul_of_nonneg_left h (Nat.cast_nonneg unit)

/-- The number of a rank rounds to it. -/
theorem nearestRank_eq (h : magnitude c e = Binary64.magnitude r) : nearestRank c e = r :=
  (nearestRank_le h.le).antisymm (le_nearestRank h.ge)

/-- What lies between the number of a rank and a decimal that rounds to it rounds to it as well. -/
theorem nearestRank_between (hr : nearestRank c e = r)
    (h : (magnitude c e ≤ magnitude c' e' ∧ magnitude c' e' ≤ Binary64.magnitude r) ∨
      (Binary64.magnitude r ≤ magnitude c' e' ∧ magnitude c' e' ≤ magnitude c e)) :
    nearestRank c' e' = r := by
  rcases h with ⟨hlow, hhigh⟩ | ⟨hlow, hhigh⟩
  · exact (nearestRank_le hhigh).antisymm (hr ▸ nearestRank_mono hlow)
  · exact (hr ▸ nearestRank_mono hhigh).antisymm (le_nearestRank hlow)

/-- Zero rounds to zero. -/
theorem nearestRank_zero (e : Int) : nearestRank 0 e = 0 :=
  nearestRank_eq (by rw [magnitude_zero_left, Binary64.magnitude_zero])

/-! ## Decimal exponents -/

/-- A number of digits, as bounds. -/
theorem ten_pow_le_of_length_toDigits (hn : 0 < n) :
    10 ^ ((Nat.toDigits 10 n).length - 1) ≤ n ∧ n < 10 ^ (Nat.toDigits 10 n).length := by
  have hlen : 0 < (Nat.toDigits 10 n).length := Nat.length_toDigits_pos
  refine ⟨?_, (Nat.length_toDigits_le_iff (by decide) hlen).mp le_rfl⟩
  by_contra hlt
  rcases Nat.eq_zero_or_pos ((Nat.toDigits 10 n).length - 1) with h0 | hpos
  · rw [h0] at hlt
    omega
  · have := (Nat.length_toDigits_le_iff (by decide) hpos).mpr (Nat.not_le.mp hlt)
    omega

/-- The decimal exponent of a positive number that is not too small. -/
theorem ten_zpow_order {num den : Nat} (hn : 0 < num) (hd : 0 < den) (hle : den ≤ 10 ^ 400) :
    (10 : ℚ) ^ order num den ≤ num / den ∧ (num / den : ℚ) < 10 ^ (order num den + 1) := by
  unfold order
  -- the scale is kept a variable, so that no power of it is computed
  obtain ⟨m, hm⟩ : ∃ m : Nat, m = 400 := ⟨_, rfl⟩
  rw [← hm] at hle ⊢
  obtain ⟨hlow, hhigh⟩ := ten_pow_le_of_length_toDigits
    (Nat.div_pos (hle.trans (Nat.le_mul_of_pos_right _ hn)) hd)
  have hlen : 0 < (Nat.toDigits 10 (10 ^ m * num / den)).length := Nat.length_toDigits_pos
  generalize (Nat.toDigits 10 (10 ^ m * num / den)).length = len at hlow hhigh hlen ⊢
  rw [Nat.le_div_iff_mul_le hd] at hlow
  rw [Nat.div_lt_iff_lt_mul hd] at hhigh
  have hten : ∀ k : Nat, (10 : ℚ) ^ ((k : Int) - m) * 10 ^ m = 10 ^ k := by
    intro k
    rw [← zpow_natCast, ← zpow_add₀ (by norm_num), ← zpow_natCast, Int.sub_add_cancel]
  have hpos : (0 : ℚ) < 10 ^ m := pow_pos (by norm_num) m
  rw [le_div_iff₀ (Nat.cast_pos.mpr hd), div_lt_iff₀ (Nat.cast_pos.mpr hd),
    show (len : Int) - 401 = (len - 1 : Nat) - m from by omega,
    show ((len - 1 : Nat) : Int) - m + 1 = len - m from by omega]
  constructor
  · refine le_of_mul_le_mul_right ?_ hpos
    rw [mul_right_comm, hten, mul_comm (num : ℚ)]
    exact_mod_cast hlow
  · refine lt_of_mul_lt_mul_right ?_ hpos.le
    rw [mul_right_comm, hten, mul_comm (num : ℚ)]
    exact_mod_cast hhigh

/-- The decimal exponent of the number of a rank. -/
theorem ten_zpow_order_quanta (hr : r ≠ 0) :
    (10 : ℚ) ^ order (quanta r) unit ≤ Binary64.magnitude r ∧
      Binary64.magnitude r < 10 ^ (order (quanta r) unit + 1) :=
  ten_zpow_order (Nat.pos_of_ne_zero (Binary64.quanta_eq_zero_iff.not.mpr hr)) unit_pos
    (by decide +kernel)

/-- The decimal exponent of a decimal. -/
theorem ten_zpow_leadingExponent (hd : d.coefficient ≠ 0) :
    (10 : ℚ) ^ d.leadingExponent ≤ magnitude d.coefficient d.exponent ∧
      magnitude d.coefficient d.exponent < 10 ^ (d.leadingExponent + 1) := by
  obtain ⟨hlow, hhigh⟩ := ten_pow_le_of_length_toDigits (Nat.pos_of_ne_zero hd)
  have hlen : 0 < (Nat.toDigits 10 d.coefficient).length := Nat.length_toDigits_pos
  rw [leadingExponent, if_neg hd, magnitude]
  generalize (Nat.toDigits 10 d.coefficient).length = len at hlow hhigh hlen ⊢
  rw [show (len : Int) - 1 + d.exponent = (len - 1 : Nat) + d.exponent from by omega,
    show ((len - 1 : Nat) : Int) + d.exponent + 1 = len + d.exponent from by omega,
    zpow_add₀ (by norm_num), zpow_add₀ (by norm_num), zpow_natCast, zpow_natCast]
  have hpos := ten_zpow_pos d.exponent
  constructor
  · exact mul_le_mul_of_nonneg_right (by exact_mod_cast hlow) hpos.le
  · exact mul_lt_mul_of_pos_right (by exact_mod_cast hhigh) hpos

theorem ten_zpow_le_iff {m n : Int} : (10 : ℚ) ^ m ≤ 10 ^ n ↔ m ≤ n :=
  zpow_le_zpow_iff_right₀ (by norm_num)

theorem ten_zpow_lt_iff {m n : Int} : (10 : ℚ) ^ m < 10 ^ n ↔ m < n :=
  zpow_lt_zpow_iff_right₀ (by norm_num)

/-! ## Significant digits -/

theorem digits_eq_rdropWhile (hd : d.coefficient ≠ 0) :
    d.digits = (Nat.toDigits 10 d.coefficient).rdropWhile (· == '0') ∧
      (Nat.toDigits 10 d.coefficient).rdropWhile (· == '0') ≠ [] := by
  have hne : (Nat.toDigits 10 d.coefficient).rdropWhile (· == '0') ≠ [] := by
    intro h
    have hzeros := List.eq_replicate_of_mem (a := '0') fun c hc ↦
      beq_iff_eq.mp (List.rdropWhile_eq_nil_iff.mp h c hc)
    have hvalue := Nat.ofDigitChars_ten_toDigits (n := d.coefficient)
    rw [hzeros, Nat.ofDigitChars_replicate_zero, Nat.mul_zero] at hvalue
    exact hd hvalue.symm
  refine ⟨?_, hne⟩
  unfold digits
  split
  · next h => exact absurd h hne
  · rfl

/-- The digits of a coefficient are its significant digits and zeros behind them. -/
theorem exists_toDigits_eq (hd : d.coefficient ≠ 0) :
    ∃ k, Nat.toDigits 10 d.coefficient = d.digits ++ List.replicate k '0' := by
  have hzeros : ∀ c ∈ (Nat.toDigits 10 d.coefficient).rtakeWhile (· == '0'), c = '0' :=
    fun c hc ↦ beq_iff_eq.mp (List.mem_rtakeWhile_imp (p := (· == '0')) hc)
  refine ⟨((Nat.toDigits 10 d.coefficient).rtakeWhile (· == '0')).length, ?_⟩
  rw [(digits_eq_rdropWhile hd).1, ← List.eq_replicate_of_mem hzeros,
    List.rdropWhile_append_rtakeWhile]

/-- The last significant digit is not zero. -/
theorem getLast?_digits (hd : d.coefficient ≠ 0) : d.digits.getLast? ≠ some '0' := by
  obtain ⟨hdigits, hne⟩ := digits_eq_rdropWhile hd
  rw [hdigits, List.getLast?_eq_some_getLast hne]
  intro h
  exact List.rdropWhile_last_not _ _ hne (beq_iff_eq.mpr (Option.some.inj h))

theorem digits_ne_nil : d.digits ≠ [] := by
  unfold digits
  split
  · exact List.cons_ne_nil _ _
  · next h => exact h

theorem digits_of_coefficient_eq_zero (hd : d.coefficient = 0) : d.digits = ['0'] := by
  rw [digits, hd]
  rfl

/-- The significant digits as a number. -/
def significand (d : Decimal) : Nat := Nat.ofDigitChars 10 d.digits 0

/-- A coefficient is its significand, with zeros behind it. -/
theorem exists_coefficient_eq (hd : d.coefficient ≠ 0) :
    ∃ k, d.coefficient = 10 ^ k * d.significand ∧
      (Nat.toDigits 10 d.coefficient).length = d.digits.length + k := by
  obtain ⟨k, hk⟩ := exists_toDigits_eq hd
  refine ⟨k, ?_, ?_⟩
  · rw [significand, ← Nat.ofDigitChars_replicate_zero, ← Nat.ofDigitChars_append, ← hk,
      Nat.ofDigitChars_ten_toDigits]
  · rw [hk, List.length_append, List.length_replicate]

theorem significand_lt (hd : d.coefficient ≠ 0) : d.significand < 10 ^ d.digits.length := by
  obtain ⟨k, hk, hlen⟩ := exists_coefficient_eq hd
  have hlt := (ten_pow_le_of_length_toDigits (Nat.pos_of_ne_zero hd)).2
  rw [hlen, hk, Nat.add_comm, Nat.pow_add] at hlt
  exact Nat.lt_of_mul_lt_mul_left hlt

/-- A decimal is its significand, at the place of the last significant digit. -/
theorem magnitude_significand (hd : d.coefficient ≠ 0) :
    magnitude d.significand (d.leadingExponent + 1 - d.digits.length) =
      magnitude d.coefficient d.exponent := by
  obtain ⟨k, hk, hlen⟩ := exists_coefficient_eq hd
  have hexponent : d.leadingExponent + 1 - d.digits.length = k + d.exponent := by
    rw [leadingExponent, if_neg hd, hlen]
    omega
  rw [hexponent, hk, magnitude_ten_pow_mul]

/-- A coefficient up to a power of ten has no more significant digits. -/
theorem length_digits_le (hd : d.coefficient ≠ 0) (hn : 0 < n) (hle : d.coefficient ≤ 10 ^ n) :
    d.digits.length ≤ n := by
  obtain ⟨k, hk⟩ := exists_toDigits_eq hd
  have hlen := congrArg List.length hk
  rw [List.length_append, List.length_replicate] at hlen
  rcases Nat.lt_or_eq_of_le hle with hlt | heq
  · have := (Nat.length_toDigits_le_iff (by decide) hn).mpr hlt
    omega
  · -- the power of ten itself has one digit more, but a zero at the end
    obtain ⟨m, rfl⟩ := Nat.exists_eq_add_one_of_ne_zero hn.ne'
    have hlt : d.coefficient < 10 ^ (m + 1 + 1) := by
      rw [heq]
      exact Nat.pow_lt_pow_right (by decide) (Nat.lt_succ_self _)
    have := (Nat.length_toDigits_le_iff (by decide) (Nat.succ_pos _)).mpr hlt
    have hk0 : k ≠ 0 := by
      rintro rfl
      have hten : 10 ≤ 10 ^ (m + 1) := Nat.le_pow (Nat.succ_pos m)
      rw [List.replicate_zero, List.append_nil, heq, Nat.toDigits_of_base_le (by decide) hten,
        Nat.pow_succ, Nat.mul_mod_left] at hk
      refine getLast?_digits hd ?_
      rw [← hk]
      exact List.getLast?_concat
    omega

end Decimal

end UnitCalc
