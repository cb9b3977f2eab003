import Mathlib.Algebra.Order.Field.Basic
import Mathlib.Data.Nat.Cast.Order.Field
import Mathlib.Tactic.FieldSimp
import Mathlib.Tactic.Positivity
import UnitCalc.Decimal.Shortest
import UnitCalc.Proofs.Decimal.Magnitude

/-!
# The shortest decimal

`Binary64.shortest` gives a decimal with the fewest significant digits of all that round to a
number, and no decimal with as many digits is nearer to it.

It looks at two decimals only for each count of digits. A decimal of at most that many digits lies
on the same grid or below the decimal exponent of the number, so it is not strictly between the two
neighbours of the number on the grid (`magnitude_le_below`, `above_le_magnitude`). What it rounds
to, the neighbour on its side therefore rounds to as well, and is at least as near.

The search ends because the number itself is a decimal of fewer digits than are looked at.
-/

namespace UnitCalc

namespace Decimal

open Binary64 (unit quanta neighbours decimalOfDigits? maxDigits)

variable {c c' n m r num den : Nat} {e e' o : Int} {α : Type} {f : Nat → Option α} {a : α}

/-! ## The first hit -/

/-- What is found first is given by the partial function, and nothing before it is. -/
theorem exists_of_firstFrom {count start : Nat} (h : firstFrom f count start = some a) :
    ∃ n, start ≤ n ∧ f n = some a ∧ ∀ m, start ≤ m → m < n → f m = none := by
  induction count generalizing start with
  | zero => cases h
  | succ count ih =>
    rw [firstFrom] at h
    cases hf : f start with
    | some b =>
      rw [hf] at h
      cases h
      exact ⟨start, le_rfl, hf, fun m hm hlt ↦ absurd hm (Nat.not_le.mpr hlt)⟩
    | none =>
      rw [hf] at h
      obtain ⟨n, hn, hfn, hnone⟩ := ih h
      refine ⟨n, (Nat.le_succ start).trans hn, hfn, fun m hm hlt ↦ ?_⟩
      rcases Nat.eq_or_lt_of_le hm with rfl | hgt
      · exact hf
      · exact hnone m hgt hlt

theorem exists_firstFrom {count start : Nat} (hn : start ≤ n) (hlt : n < start + count)
    (h : (f n).isSome = true) : ∃ a, firstFrom f count start = some a := by
  induction count generalizing start with
  | zero => omega
  | succ count ih =>
    rw [firstFrom]
    cases hf : f start with
    | some b => exact ⟨b, rfl⟩
    | none =>
      refine ih ?_ (by omega)
      refine Nat.lt_of_le_of_ne hn ?_
      rintro rfl
      rw [hf] at h
      cases h

/-! ## Neighbours -/

/-- The distances of a ratio from the two whole numbers next to it. -/
theorem abs_sub_neighbours (num : Nat) (hd : 0 < den) :
    |((num / den : Nat) : ℚ) - num / den| = (num % den : Nat) / den ∧
      |((num / den + 1 : Nat) : ℚ) - num / den| = 1 - (num % den : Nat) / den := by
  have hden : (0 : ℚ) < den := Nat.cast_pos.mpr hd
  have hratio : (num : ℚ) / den = (num / den : Nat) + (num % den : Nat) / den := by
    rw [div_eq_iff hden.ne', add_mul, div_mul_cancel₀ _ hden.ne', mul_comm]
    exact_mod_cast (Nat.div_add_mod num den).symm
  have hrest : ((num % den : Nat) : ℚ) / den ≤ 1 :=
    (div_le_one hden).mpr (Nat.cast_le.mpr (Nat.mod_lt num hd).le)
  rw [hratio, Nat.cast_add, Nat.cast_one, sub_add_cancel_left, abs_neg, add_sub_add_left_eq_sub]
  exact ⟨abs_of_nonneg (by positivity), abs_of_nonneg (sub_nonneg.mpr hrest)⟩

/-- The two whole numbers next to a ratio come with the nearer one first. -/
theorem exists_neighbours (num : Nat) (hd : 0 < den) :
    ∃ a b, neighbours num den = [a, b] ∧
      ((a = num / den ∧ b = num / den + 1) ∨ (a = num / den + 1 ∧ b = num / den)) ∧
      |(a : ℚ) - num / den| ≤ |(b : ℚ) - num / den| := by
  have hden : (0 : ℚ) < den := Nat.cast_pos.mpr hd
  obtain ⟨hbelow, habove⟩ := abs_sub_neighbours num hd
  have hdown : ((num % den : Nat) : ℚ) / den ≤ 1 - (num % den : Nat) / den ↔
      2 * (num % den) ≤ den := by
    rw [le_sub_iff_add_le, ← add_div, div_le_one hden, ← two_mul]
    exact_mod_cast Iff.rfl
  have hup : 1 - ((num % den : Nat) : ℚ) / den ≤ (num % den : Nat) / den ↔
      den ≤ 2 * (num % den) := by
    rw [sub_le_iff_le_add, ← add_div, one_le_div hden, ← two_mul]
    exact_mod_cast Iff.rfl
  unfold neighbours
  dsimp only
  split
  · next h =>
    refine ⟨_, _, rfl, .inl ⟨rfl, rfl⟩, ?_⟩
    rw [hbelow, habove, hdown]
    omega
  · next h =>
    refine ⟨_, _, rfl, .inr ⟨rfl, rfl⟩, ?_⟩
    rw [hbelow, habove, hup]
    omega

/-- Of the neighbours with a property, the nearest is found. -/
theorem find?_neighbours {p : Nat → Bool} (hd : 0 < den) (hp : p c = true)
    (hc : c = num / den ∨ c = num / den + 1) :
    ∃ a, (neighbours num den).find? p = some a ∧ (a = num / den ∨ a = num / den + 1) ∧
      p a = true ∧ |(a : ℚ) - num / den| ≤ |(c : ℚ) - num / den| := by
  obtain ⟨a, b, hab, hmem, hle⟩ := exists_neighbours num hd
  rw [hab, List.find?_cons]
  by_cases ha : p a = true
  · rw [ha]
    refine ⟨a, rfl, by omega, ha, ?_⟩
    rcases (by omega : c = a ∨ c = b) with rfl | rfl
    · exact le_rfl
    · exact hle
  · have hcb : c = b := by
      rcases (by omega : c = a ∨ c = b) with rfl | rfl
      · exact absurd hp ha
      · rfl
    subst hcb
    rw [Bool.eq_false_of_not_eq_true ha, List.find?_cons, hp]
    exact ⟨c, rfl, hc, hp, le_rfl⟩

/-! ## The grid of a number of digits -/

theorem inUnits_eq_div (num den : Nat) (e : Int) :
    ((inUnits num den e).1 : ℚ) / (inUnits num den e).2 = num / den / 10 ^ e := by
  rw [inUnits, ten_zpow_eq_div, div_div_div_eq]
  push_cast
  rfl

theorem inUnits_den_pos (num : Nat) (hd : 0 < den) (e : Int) : 0 < (inUnits num den e).2 :=
  Nat.mul_pos hd (Nat.pow_pos (by decide))

theorem abs_magnitude_sub (c : Nat) (e : Int) (x : ℚ) :
    |magnitude c e - x| = |c - x / 10 ^ e| * 10 ^ e := by
  have hpos := ten_zpow_pos e
  rw [← abs_of_pos hpos, ← abs_mul, abs_of_pos hpos, sub_mul, div_mul_cancel₀ _ hpos.ne',
    magnitude]

/-- A decimal of at most `n` digits lies on the grid of `n` digits, unless it is smaller than all
numbers with the decimal exponent `o`. -/
theorem exists_magnitude_eq_or_lt (hc : c < 10 ^ n) (e o : Int) :
    (∃ m, magnitude c e = magnitude m (o - n + 1)) ∨ magnitude c e < 10 ^ o := by
  rcases le_or_gt (o - n + 1) e with hle | hlt
  · refine .inl ⟨10 ^ (e - (o - n + 1)).toNat * c, ?_⟩
    rw [magnitude_ten_pow_mul]
    congr 1
    omega
  · refine .inr ?_
    calc magnitude c e
      _ < magnitude (10 ^ n) e := (lt_iff_lt_of_le_iff_le magnitude_le_magnitude_iff).mpr hc
      _ = 10 ^ (n + e) := magnitude_ten_pow n e
      _ ≤ 10 ^ o := ten_zpow_le_iff.mpr (by omega)

section

variable {x : ℚ} (hx : (num : ℚ) / den = x / 10 ^ (o - n + 1)) (hd : 0 < den) (ho : 10 ^ o ≤ x)
include hx hd ho

/-- No decimal of `n` digits is above the lower neighbour of a number and up to the number. -/
theorem magnitude_le_below (hn : 0 < n) (hc : c < 10 ^ n) (hle : magnitude c e ≤ x) :
    magnitude c e ≤ magnitude (num / den) (o - n + 1) := by
  have hgrid : ∀ m, magnitude m (o - n + 1) ≤ x → m ≤ num / den := by
    intro m hm
    rw [magnitude, ← le_div_iff₀ (ten_zpow_pos _), ← hx, le_div_iff₀ (Nat.cast_pos.mpr hd)] at hm
    exact (Nat.le_div_iff_mul_le hd).mpr (by exact_mod_cast hm)
  rcases exists_magnitude_eq_or_lt hc e o with ⟨m, hm⟩ | hlt
  · rw [hm] at hle ⊢
    exact magnitude_le_magnitude_iff.mpr (hgrid m hle)
  · have hten : magnitude (10 ^ (n - 1)) (o - n + 1) = 10 ^ o := by
      rw [magnitude_ten_pow]
      congr 1
      omega
    exact hlt.le.trans (hten ▸ magnitude_le_magnitude_iff.mpr (hgrid _ (hten ▸ ho)))

/-- No decimal of `n` digits is above a number and below its upper neighbour. -/
theorem above_le_magnitude (hc : c < 10 ^ n) (hlt : x < magnitude c e) :
    magnitude (num / den + 1) (o - n + 1) ≤ magnitude c e := by
  rcases exists_magnitude_eq_or_lt hc e o with ⟨m, hm⟩ | hgt
  · rw [hm] at hlt ⊢
    refine magnitude_le_magnitude_iff.mpr (Nat.succ_le_of_lt ?_)
    rw [magnitude, ← div_lt_iff₀ (ten_zpow_pos _), ← hx, div_lt_iff₀ (Nat.cast_pos.mpr hd)] at hlt
    exact (Nat.div_lt_iff_lt_mul hd).mpr (by exact_mod_cast hlt)
  · exact absurd (hlt.trans hgt) (not_lt.mpr ho)

end

/-! ## One number of digits -/

/-- A decimal of the grid is as far from the number of the rank as it is on the grid. -/
theorem abs_magnitude_sub_le {x : ℚ} (hx : (num : ℚ) / den = x / 10 ^ e)
    (h : |(c : ℚ) - num / den| ≤ |(c' : ℚ) - num / den|) :
    |magnitude c e - x| ≤ |magnitude c' e - x| := by
  rw [abs_magnitude_sub, abs_magnitude_sub, ← hx]
  exact mul_le_mul_of_nonneg_right h (ten_zpow_pos e).le

/-- If a decimal rounds to a rank, one of the neighbours of its number on the grid does as well, and
is at least as near. -/
theorem exists_neighbour {x : ℚ} (hx : (num : ℚ) / den = x / 10 ^ (o - n + 1)) (hd : 0 < den)
    (ho : 10 ^ o ≤ x) (hxr : x = Binary64.magnitude r) (hn : 0 < n) (hc : c < 10 ^ n)
    (hrank : nearestRank c e = r) :
    ∃ b, (b = num / den ∨ b = num / den + 1) ∧ nearestRank b (o - n + 1) = r ∧
      |magnitude b (o - n + 1) - x| ≤ |magnitude c e - x| := by
  have hpos := ten_zpow_pos (o - n + 1)
  rcases le_or_gt (magnitude c e) x with hle | hlt
  · have hlow := magnitude_le_below hx hd ho hn hc hle
    have hhigh : magnitude (num / den) (o - n + 1) ≤ x := by
      rw [magnitude, ← le_div_iff₀ hpos, ← hx]
      exact Nat.cast_div_le
    refine ⟨_, .inl rfl, nearestRank_between hrank (.inl ⟨hlow, hxr ▸ hhigh⟩), ?_⟩
    rw [abs_of_nonpos (sub_nonpos.mpr hhigh), abs_of_nonpos (sub_nonpos.mpr hle)]
    exact neg_le_neg (sub_le_sub_right hlow x)
  · have hhigh := above_le_magnitude hx hd ho hc hlt
    have hlow : x ≤ magnitude (num / den + 1) (o - n + 1) := by
      rw [magnitude, ← div_le_iff₀ hpos, ← hx, div_le_iff₀ (Nat.cast_pos.mpr hd)]
      exact_mod_cast (Nat.lt_mul_of_div_lt (Nat.lt_succ_self _) hd).le
    refine ⟨_, .inr rfl, nearestRank_between hrank (.inr ⟨hxr ▸ hlow, hhigh⟩), ?_⟩
    rw [abs_of_nonneg (sub_nonneg.mpr hlow), abs_of_nonneg (sub_nonneg.mpr hlt.le)]
    exact sub_le_sub_right hhigh x

/-- The number of digits before the point of the grid. -/
theorem ten_pow_le_below {x : ℚ} (hx : (num : ℚ) / den = x / 10 ^ (o - n + 1)) (hd : 0 < den)
    (hn : 0 < n) (ho : 10 ^ o ≤ x ∧ x < 10 ^ (o + 1)) :
    10 ^ (n - 1) ≤ num / den ∧ num / den < 10 ^ n := by
  have hpos := ten_zpow_pos (o - n + 1)
  have hden : (0 : ℚ) < den := Nat.cast_pos.mpr hd
  rw [Nat.le_div_iff_mul_le hd, Nat.div_lt_iff_lt_mul hd]
  constructor
  · have hlow : magnitude (10 ^ (n - 1)) (o - n + 1) ≤ x := by
      rw [magnitude_ten_pow]
      exact le_of_eq_of_le (by congr 1; omega) ho.1
    rw [magnitude, ← le_div_iff₀ hpos, ← hx, le_div_iff₀ hden] at hlow
    exact_mod_cast hlow
  · have hhigh : x < magnitude (10 ^ n) (o - n + 1) := by
      rw [magnitude_ten_pow]
      exact lt_of_lt_of_eq ho.2 (by congr 1; omega)
    rw [magnitude, ← div_lt_iff₀ hpos, ← hx, div_lt_iff₀ hden] at hhigh
    exact_mod_cast hhigh

/-- `c * 10 ^ e` lies on the grid of `n` digits and rounds to the rank. -/
structure IsOfDigits (r n c : Nat) (e : Int) : Prop where
  exponent_eq : e = order (quanta r) unit - n + 1
  le_coefficient : 10 ^ (n - 1) ≤ c
  coefficient_le : c ≤ 10 ^ n
  nearestRank_eq : nearestRank c e = r

theorem ratio_eq (r : Nat) (e : Int) :
    ((inUnits (quanta r) unit e).1 : ℚ) / (inUnits (quanta r) unit e).2 =
      Binary64.magnitude r / 10 ^ e :=
  inUnits_eq_div _ _ _

theorem decimalOfDigits?_eq (r : Nat) (o : Int) (n : Nat) :
    decimalOfDigits? r o n =
      ((neighbours (inUnits (quanta r) unit (o - n + 1)).1
        (inUnits (quanta r) unit (o - n + 1)).2).find?
          fun c ↦ nearestRank c (o - n + 1) == r).map (·, o - n + 1) := rfl

/-- What is found for a number of digits is a decimal of that many digits. -/
theorem isOfDigits_of_decimalOfDigits? (hr : r ≠ 0) (hn : 0 < n)
    (h : decimalOfDigits? r (order (quanta r) unit) n = some (c, e)) : IsOfDigits r n c e := by
  rw [decimalOfDigits?_eq, Option.map_eq_some_iff] at h
  obtain ⟨a, ha, hae⟩ := h
  obtain ⟨rfl, rfl⟩ := Prod.mk.inj hae
  have hd := inUnits_den_pos (quanta r) Binary64.unit_pos (order (quanta r) unit - n + 1)
  obtain ⟨hlow, hhigh⟩ := ten_pow_le_below (ratio_eq r _) hd hn (ten_zpow_order_quanta hr)
  obtain ⟨b, b', hbb, hmem, -⟩ := exists_neighbours
    (inUnits (quanta r) unit (order (quanta r) unit - n + 1)).1 hd
  have hab := List.mem_of_find?_eq_some ha
  rw [hbb, List.mem_pair] at hab
  have hrank := List.find?_some ha
  rw [beq_iff_eq] at hrank
  exact ⟨rfl, by omega, by omega, hrank⟩

/-- If any decimal of a number of digits rounds to the rank, one is found that is as near. -/
theorem exists_decimalOfDigits? (hr : r ≠ 0) (hn : 0 < n) (hc : c < 10 ^ n)
    (hrank : nearestRank c e = r) :
    ∃ a e', decimalOfDigits? r (order (quanta r) unit) n = some (a, e') ∧
      |magnitude a e' - Binary64.magnitude r| ≤ |magnitude c e - Binary64.magnitude r| := by
  have hd := inUnits_den_pos (quanta r) Binary64.unit_pos (order (quanta r) unit - n + 1)
  have hx := ratio_eq r (order (quanta r) unit - n + 1)
  obtain ⟨b, hb, hbr, hbc⟩ := exists_neighbour hx hd (ten_zpow_order_quanta hr).1 rfl hn hc hrank
  obtain ⟨a, ha, -, -, hab⟩ := find?_neighbours
    (p := fun c ↦ nearestRank c (order (quanta r) unit - n + 1) == r) hd (beq_iff_eq.mpr hbr) hb
  refine ⟨a, _, ?_, (abs_magnitude_sub_le hx hab).trans hbc⟩
  rw [decimalOfDigits?_eq, ha, Option.map_some]

/-! ## The shortest decimal -/

theorem two_pow_mul_five_pow_le {k m : Nat} (hm : m = 1074) (hk : k ≤ m) :
    2 ^ 53 * 5 ^ k ≤ 10 ^ maxDigits := by
  refine (Nat.mul_le_mul_left _ (Nat.pow_le_pow_right (by decide) hk)).trans ?_
  subst hm
  decide +kernel

theorem two_pow_mul_two_pow_le {k m : Nat} (hm : m = 971) (hk : k ≤ m) :
    2 ^ 53 * 2 ^ k ≤ 10 ^ maxDigits := by
  refine (Nat.mul_le_mul_left _ (Nat.pow_le_pow_right (by decide) hk)).trans ?_
  subst hm
  decide +kernel

/-- The number of a rank is a decimal with fewer digits than are looked at. -/
theorem exists_magnitude_eq (hr : r < Binary64.rankBound) :
    ∃ c e, c < 10 ^ maxDigits ∧ magnitude c e = Binary64.magnitude r := by
  have hsignificand := Binary64.significand_lt r
  have hbinade : Binary64.binade r ≤ 1074 + 971 := by
    unfold Binary64.binade
    unfold Binary64.rankBound at hr
    omega
  have hquanta : (quanta r : ℚ) = Binary64.significand r * 2 ^ Binary64.binade r := by
    rw [quanta, Nat.cast_mul, Nat.cast_pow, Nat.cast_ofNat]
  rcases Nat.le_total (Binary64.binade r) 1074 with hle | hge
  · -- a division by two is a product with five and a division by ten
    obtain ⟨k, hk⟩ := Nat.exists_eq_add_of_le hle
    refine ⟨Binary64.significand r * 5 ^ k, -k, ?_, ?_⟩
    · exact (Nat.mul_lt_mul_of_pos_right hsignificand (Nat.pow_pos (by decide))).trans_le
        (two_pow_mul_five_pow_le rfl (by omega))
    · have hpow : unit = 2 ^ (Binary64.binade r + k) := by rw [← hk, unit]
      have hunit : (unit : ℚ) = 2 ^ Binary64.binade r * 2 ^ k := by
        rw [hpow, Nat.cast_pow, Nat.cast_ofNat, pow_add]
      have hten : (10 : ℚ) ^ k = 5 ^ k * 2 ^ k := by rw [← mul_pow]; norm_num
      rw [magnitude, Binary64.magnitude, hquanta, hunit, zpow_neg, zpow_natCast, hten]
      push_cast
      field_simp
  · obtain ⟨k, hk⟩ := Nat.exists_eq_add_of_le hge
    refine ⟨Binary64.significand r * 2 ^ k, 0, ?_, ?_⟩
    · exact (Nat.mul_lt_mul_of_pos_right hsignificand (Nat.pow_pos (by decide))).trans_le
        (two_pow_mul_two_pow_le rfl (by omega))
    · have hpow : 2 ^ Binary64.binade r = unit * 2 ^ k := by rw [hk, pow_add, unit]
      have hunit : (2 : ℚ) ^ Binary64.binade r = unit * 2 ^ k := by exact_mod_cast hpow
      have hne : (unit : ℚ) ≠ 0 := Nat.cast_ne_zero.mpr Binary64.unit_pos.ne'
      rw [magnitude_zero_right, Binary64.magnitude, hquanta, hunit]
      push_cast
      field_simp

/-- `c * 10 ^ e` has the fewest digits, `n`, of all decimals that round to the rank `r`, and is the
nearest of those with as many digits to the number of the rank. -/
structure IsShortest (r n c : Nat) (e : Int) : Prop extends IsOfDigits r n c e where
  pos : 0 < n
  fewest : ∀ {c' n' : Nat} {e' : Int}, nearestRank c' e' = r → c' < 10 ^ n' → n ≤ n'
  nearest : ∀ {c' : Nat} {e' : Int}, nearestRank c' e' = r → c' < 10 ^ n →
    |magnitude c e - Binary64.magnitude r| ≤ |magnitude c' e' - Binary64.magnitude r|

/-- Only zero has no digits. -/
theorem pos_of_lt_ten_pow (hr : r ≠ 0) (hrank : nearestRank c e = r) (hc : c < 10 ^ n) : 0 < n := by
  rcases Nat.eq_zero_or_pos n with rfl | hn
  · rw [Nat.pow_zero, Nat.lt_one_iff] at hc
    rw [hc, nearestRank_zero] at hrank
    exact absurd hrank.symm hr
  · exact hn

/-- The shortest decimal of a number other than zero. -/
theorem exists_isShortest (s : Bool) (hr : r ≠ 0) (hlt : r < Binary64.rankBound) :
    ∃ n c e, Binary64.shortest s r = ⟨s, c, e⟩ ∧ IsShortest r n c e := by
  obtain ⟨c₀, e₀, hc₀, hexact⟩ := exists_magnitude_eq hlt
  obtain ⟨a, e, ha, -⟩ :=
    exists_decimalOfDigits? hr (by decide : 0 < maxDigits) hc₀ (nearestRank_eq hexact)
  obtain ⟨⟨c, e⟩, hfirst⟩ := exists_firstFrom (f := decimalOfDigits? r (order (quanta r) unit))
    (by decide : 1 ≤ maxDigits) (by omega : maxDigits < 1 + maxDigits) (by rw [ha]; rfl)
  obtain ⟨n, hn, hce, hnone⟩ := exists_of_firstFrom hfirst
  refine ⟨n, c, e, ?_, isOfDigits_of_decimalOfDigits? hr hn hce, hn, ?_, ?_⟩
  · rw [Binary64.shortest, if_neg hr]
    dsimp only
    rw [hfirst]
    rfl
  · -- fewer digits would have been found before
    intro c' n' e' hrank hc'
    have hn' := pos_of_lt_ten_pow hr hrank hc'
    by_contra hlt'
    obtain ⟨a', e'', ha', -⟩ := exists_decimalOfDigits? hr hn' hc' hrank
    rw [hnone n' hn' (Nat.not_le.mp hlt')] at ha'
    cases ha'
  · intro c' e' hrank hc'
    obtain ⟨a', e'', ha', hnear⟩ := exists_decimalOfDigits? hr hn hc' hrank
    rw [hce] at ha'
    cases ha'
    exact hnear

/-! ## The shortest decimal of a number -/

/-- A decimal as a rational number. -/
def value (d : Decimal) : ℚ :=
  if d.negative then -magnitude d.coefficient d.exponent else magnitude d.coefficient d.exponent

end Decimal

/-- A finite number as a rational number. -/
def Binary64.value : Binary64 → ℚ
  | finite s a => if s then -magnitude a else magnitude a
  | _ => 0

namespace Decimal

open Binary64 (finite rankBound shortest)

/-- Of all decimals that round to the number, this one has the fewest significant digits, and none
with as many digits is nearer to the number. -/
structure IsShortestFor (d : Decimal) (x : Binary64) : Prop where
  toBinary64_eq : d.toBinary64 = x
  length_digits_le : ∀ d' : Decimal, d'.toBinary64 = x → d.digits.length ≤ d'.digits.length
  abs_sub_le : ∀ d' : Decimal, d'.toBinary64 = x → d'.digits.length = d.digits.length →
    |d.value - x.value| ≤ |d'.value - x.value|

variable {d : Decimal} {s : Bool} {a : Fin rankBound}

theorem toBinary64_eq_finite_iff :
    d.toBinary64 = finite s a ↔ d.negative = s ∧ nearestRank d.coefficient d.exponent = a := by
  unfold toBinary64 Binary64.ofRank
  split
  · next h => simp [Fin.ext_iff]
  · next h =>
    refine iff_of_false nofun ?_
    rintro ⟨-, hrank⟩
    exact h (hrank ▸ a.isLt)

/-- Distances do not depend on the sign. -/
theorem abs_value_sub (hs : d.negative = s) (a : Fin rankBound) :
    |d.value - (finite s a).value| =
      |magnitude d.coefficient d.exponent - Binary64.magnitude a| := by
  subst hs
  rw [value, Binary64.value]
  split
  · rw [neg_sub_neg, abs_sub_comm]
  · rfl

theorem coefficient_ne_zero (hrank : nearestRank d.coefficient d.exponent = r) (hr : r ≠ 0) :
    d.coefficient ≠ 0 := by
  intro h0
  rw [h0, nearestRank_zero] at hrank
  exact hr hrank.symm

/-- The decimal of the shortest text is a shortest decimal. -/
theorem isShortestFor_shortest (s : Bool) (a : Fin rankBound) :
    (shortest s a).IsShortestFor (finite s a) := by
  by_cases ha : a.val = 0
  · have hvalue : |(Decimal.mk s 0 0).value - (finite s a).value| = 0 := by
      rw [abs_value_sub rfl, ha, magnitude_zero_left, Binary64.magnitude_zero, sub_zero, abs_zero]
    rw [shortest, if_pos ha]
    refine ⟨toBinary64_eq_finite_iff.mpr ⟨rfl, (nearestRank_zero 0).trans ha.symm⟩,
      fun d' _ ↦ ?_, fun d' _ _ ↦ ?_⟩
    · rw [digits_of_coefficient_eq_zero rfl]
      exact List.length_pos_iff.mpr digits_ne_nil
    · rw [hvalue]
      exact abs_nonneg _
  · obtain ⟨n, c, e, hshortest, h⟩ := exists_isShortest s ha a.isLt
    rw [hshortest]
    have hc : c ≠ 0 := coefficient_ne_zero (d := ⟨s, c, e⟩) h.nearestRank_eq ha
    have hlen : (Decimal.mk s c e).digits.length ≤ n := length_digits_le hc h.pos h.coefficient_le
    -- a decimal is its significant digits, so their number is what counts
    have hdigits : ∀ d' : Decimal, d'.toBinary64 = finite s a →
        nearestRank d'.significand (d'.leadingExponent + 1 - d'.digits.length) = a ∧
          d'.significand < 10 ^ d'.digits.length := by
      intro d' hd'
      obtain ⟨-, hrank⟩ := toBinary64_eq_finite_iff.mp hd'
      have hne := coefficient_ne_zero hrank ha
      exact ⟨(nearestRank_congr (magnitude_significand hne)).trans hrank, significand_lt hne⟩
    refine ⟨toBinary64_eq_finite_iff.mpr ⟨rfl, h.nearestRank_eq⟩, fun d' hd' ↦ ?_,
      fun d' hd' heq ↦ ?_⟩
    · obtain ⟨hrank, hlt⟩ := hdigits d' hd'
      exact hlen.trans (h.fewest hrank hlt)
    · obtain ⟨hrank, hlt⟩ := hdigits d' hd'
      obtain ⟨hs, hd⟩ := toBinary64_eq_finite_iff.mp hd'
      have hle := h.nearest hrank (hlt.trans_le (Nat.pow_le_pow_right (by decide) (by omega)))
      rw [magnitude_significand (coefficient_ne_zero hd ha)] at hle
      rw [abs_value_sub rfl, abs_value_sub hs]
      exact hle

end Decimal

end UnitCalc
