import UnitCalc.Proofs.Binary64.Finite
import UnitCalc.Proofs.Decimal.Layout
import UnitCalc.Proofs.Decimal.Shortest
import UnitCalc.Quantity.Format

/-!
# Plain texts

The plain text of a number is its shortest text without a final `.0`. For whole numbers below
`10 ^ 16` the plain text is made of all digits of the number, which are read back because they are
the number. That they are also the shortest digits that are read back takes an argument above
`2 ^ 53`, where not every whole number is a binary64 number: a decimal with fewer digits than the
number is a multiple of ten, so it is even and a binary64 number itself, and rounds to no other.

The shortest decimals of all other numbers are no whole numbers below `10 ^ 16`, so that their texts
have no final `.0`.
-/

namespace UnitCalc

open Binary64 (rankBound unit quanta shortest)

variable {c n r : Nat} {e : Int} {d : Decimal} {s : Bool} {a : Fin rankBound} {x : Binary64}

namespace Decimal

/-! ## Rounding what is read -/

theorem rankBound_le_nearestRank : rankBound ≤ nearestRank 1 400 := by decide +kernel

theorem nearestRank_eq_zero : nearestRank 1 (-400) = 0 := by decide +kernel

/-- Decimals that round to a finite number other than zero are neither too large nor too small. -/
theorem leadingExponent_bounds (hd : d.coefficient ≠ 0)
    (hrank : nearestRank d.coefficient d.exponent = r) (hr : r ≠ 0) (hlt : r < rankBound) :
    -400 ≤ d.leadingExponent ∧ d.leadingExponent ≤ 400 := by
  obtain ⟨hlow, hhigh⟩ := ten_zpow_leadingExponent hd
  constructor
  · by_contra hx
    have hle : magnitude d.coefficient d.exponent ≤ magnitude 1 (-400) := by
      rw [magnitude_one]
      exact hhigh.le.trans (ten_zpow_le_iff.mpr (by omega))
    have := nearestRank_mono hle
    rw [nearestRank_eq_zero] at this
    omega
  · by_contra hx
    have hle : magnitude 1 400 ≤ magnitude d.coefficient d.exponent := by
      rw [magnitude_one]
      exact (ten_zpow_le_iff.mpr (by omega)).trans hlow
    have := rankBound_le_nearestRank.trans (nearestRank_mono hle)
    omega

theorem rounded_eq (hrank : nearestRank c e = a) (h : c = 0 ∨ a.val ≠ 0) :
    rounded ⟨s, c, e⟩ = .finite s a := by
  by_cases hc : c = 0
  · have ha : a.val = 0 := by rw [← hrank, hc, nearestRank_zero]
    rw [rounded, if_pos hc]
    exact Binary64.zero_eq_finite s ha
  · have hr : a.val ≠ 0 := h.resolve_left hc
    obtain ⟨hlow, hhigh⟩ := leadingExponent_bounds (d := ⟨s, c, e⟩) hc hrank hr a.isLt
    rw [rounded, if_neg hc, if_neg (by omega), if_neg (by omega), toBinary64, hrank,
      Binary64.ofRank_of_lt s a.isLt]

/-- The text of a decimal that rounds to a number is read as the number. -/
theorem read?_write (style : Notation) (hrank : nearestRank d.coefficient d.exponent = a)
    (h : d.coefficient = 0 ∨ a.val ≠ 0) :
    Binary64.read? (d.write style) = some (.finite d.negative a) := by
  obtain ⟨c, e, hreads, hmagnitude⟩ := readsAs_body style d
  rw [write_eq, hreads.read?_ofList d.negative]
  refine congrArg some (rounded_eq ((nearestRank_congr hmagnitude).trans hrank) ?_)
  refine h.imp_left fun h0 ↦ Nat.eq_zero_of_not_pos fun hc ↦ ?_
  rw [← magnitude_pos_iff, hmagnitude, magnitude_pos_iff, h0] at hc
  exact absurd hc (Nat.lt_irrefl 0)

/-! ## Texts of equal magnitudes -/

/-- A power of ten appends zeros. -/
theorem toDigits_ten_pow_mul (hc : 0 < c) (k : Nat) :
    Nat.toDigits 10 (10 ^ k * c) = Nat.toDigits 10 c ++ List.replicate k '0' := by
  induction k with
  | zero => rw [Nat.pow_zero, Nat.one_mul, List.replicate_zero, List.append_nil]
  | succ k ih =>
    have happend := Nat.toDigits_append_toDigits (b := 10) (n := 10 ^ k * c) (d := 0) (by decide)
      (Nat.mul_pos (Nat.pow_pos (by decide)) hc) (by decide)
    rw [Nat.pow_succ, Nat.mul_comm _ 10, Nat.mul_assoc, ← Nat.add_zero (10 * _), ← happend, ih,
      List.replicate_succ', List.append_assoc]
    rfl

theorem rdropWhile_append_replicate (cs : List Char) (k : Nat) :
    (cs ++ List.replicate k '0').rdropWhile (· == '0') = cs.rdropWhile (· == '0') := by
  induction k with
  | zero => rw [List.replicate_zero, List.append_nil]
  | succ k ih =>
    rw [List.replicate_succ', ← List.append_assoc, List.rdropWhile_concat_pos _ _ _ rfl, ih]

/-- A factor of ten in the coefficient instead of the exponent does not show. -/
theorem write_ten_pow_mul (style : Notation) (s : Bool) (hc : c ≠ 0) (k : Nat) (e : Int) :
    (Decimal.mk s (10 ^ k * c) e).write style = (Decimal.mk s c (k + e)).write style := by
  have hck : 10 ^ k * c ≠ 0 := (Nat.mul_pos (Nat.pow_pos (by decide)) (Nat.pos_of_ne_zero hc)).ne'
  have htoDigits := toDigits_ten_pow_mul (Nat.pos_of_ne_zero hc) k
  have hdigits : (Decimal.mk s (10 ^ k * c) e).digits = (Decimal.mk s c (k + e)).digits := by
    rw [(digits_eq_rdropWhile (d := ⟨s, 10 ^ k * c, e⟩) hck).1,
      (digits_eq_rdropWhile (d := ⟨s, c, k + e⟩) hc).1, htoDigits, rdropWhile_append_replicate]
  have hexponent : (Decimal.mk s (10 ^ k * c) e).leadingExponent =
      (Decimal.mk s c (k + e)).leadingExponent := by
    rw [leadingExponent, leadingExponent, if_neg hck, if_neg hc, htoDigits, List.length_append,
      List.length_replicate]
    push_cast
    omega
  rw [write_eq, write_eq, body, body, hdigits, hexponent]

theorem eq_ten_pow_mul {c c' k : Nat} (h : magnitude c e = magnitude c' (k + e)) :
    c = 10 ^ k * c' := by
  rw [← magnitude_ten_pow_mul] at h
  exact (magnitude_le_magnitude_iff.mp h.le).antisymm (magnitude_le_magnitude_iff.mp h.ge)

/-- The text of a decimal depends on its sign and its magnitude alone. -/
theorem write_congr (style : Notation) {c c' : Nat} {e e' : Int} (s : Bool) (hc : c ≠ 0)
    (h : magnitude c e = magnitude c' e') :
    (Decimal.mk s c e).write style = (Decimal.mk s c' e').write style := by
  have hc' : c' ≠ 0 := by
    rw [← Nat.pos_iff_ne_zero, ← magnitude_pos_iff (e := e'), ← h, magnitude_pos_iff]
    exact Nat.pos_of_ne_zero hc
  rcases le_total e e' with hle | hle
  · obtain ⟨k, rfl⟩ := Int.le.dest hle
    rw [Int.add_comm] at h ⊢
    rw [eq_ten_pow_mul h, write_ten_pow_mul style s hc']
  · obtain ⟨k, rfl⟩ := Int.le.dest hle
    rw [Int.add_comm] at h ⊢
    rw [eq_ten_pow_mul h.symm, write_ten_pow_mul style s hc]

/-! ## Whole numbers -/

/-- A whole number below the first exponent that is written with a mark is written with all its
digits. -/
theorem write_natCast {l u : Int} (hl : l ≤ 0) (hn : 0 < n)
    (hu : (Nat.toDigits 10 n).length ≤ u) (s : Bool) :
    (Decimal.mk s n 0).write ⟨l, u, false⟩ = String.ofList (signed s (Nat.toDigits 10 n)) := by
  obtain ⟨k, hk⟩ := exists_toDigits_eq (d := ⟨s, n, 0⟩) hn.ne'
  have hlen := congrArg List.length hk
  rw [List.length_append, List.length_replicate] at hlen
  have hexponent : (Decimal.mk s n 0).leadingExponent = (Nat.toDigits 10 n).length - 1 := by
    rw [leadingExponent, if_neg hn.ne', Int.add_zero]
  have hpos : 0 < (Nat.toDigits 10 n).length := Nat.length_toDigits_pos
  dsimp only at hlen
  rw [write_eq, body, hexponent, if_pos (by dsimp only; omega),
    positional_of_length_le (by omega) (by omega), if_neg Bool.false_ne_true, List.append_nil]
  have hzeros : (((Nat.toDigits 10 n).length : Int) - 1 + 1).toNat -
      (Decimal.mk s n 0).digits.length = k := by omega
  rw [hzeros, ← hk]

/-- A decimal without a fractional part as a ratio. -/
theorem nearestRank_of_nonneg (c : Nat) (he : 0 ≤ e) :
    nearestRank c e = Binary64.nearestRank (unit * (c * 10 ^ e.toNat)) 1 := by
  rw [nearestRank, show (-e).toNat = 0 from by omega, Nat.pow_zero]

theorem magnitude_of_nonneg (c : Nat) (he : 0 ≤ e) :
    magnitude c e = (c * 10 ^ e.toNat : Nat) := by
  rw [magnitude, Nat.cast_mul, Nat.cast_pow, Nat.cast_ofNat, ← zpow_natCast,
    Int.toNat_of_nonneg he]

theorem magnitude_eq_natCast_iff : Binary64.magnitude r = n ↔ quanta r = unit * n := by
  have hne : (unit : ℚ) ≠ 0 := Nat.cast_ne_zero.mpr Binary64.unit_pos.ne'
  rw [Binary64.magnitude, div_eq_iff hne, mul_comm]
  exact_mod_cast Iff.rfl

/-- A whole number that is a multiple of ten, up to `10 ^ 16`, is a binary64 number. -/
theorem magnitude_nearestRank_of_ten_dvd (hn : n ≤ 10 ^ 16) (hten : 10 ∣ n) :
    Binary64.magnitude (Binary64.nearestRank (unit * n) 1) = n := by
  refine magnitude_eq_natCast_iff.mpr (Binary64.quanta_nearestRank_unit_mul (k := 1) ?_ ?_)
  · exact hn.trans_lt (by decide)
  · exact Nat.dvd_trans (by decide) hten

/-- The decimal exponent of a whole number below `10 ^ 16`. -/
theorem order_of_natCast {N : Nat} (hr : Binary64.magnitude r = N) (hpos : 0 < N)
    (hlt : N < 10 ^ 16) :
    0 ≤ order (quanta r) unit ∧ order (quanta r) unit < 16 ∧
      (N : ℚ) < 10 ^ (order (quanta r) unit + 1) := by
  have hr0 : r ≠ 0 := by
    rintro rfl
    rw [Binary64.magnitude_zero] at hr
    exact hpos.ne (by exact_mod_cast hr)
  obtain ⟨hlow, hhigh⟩ := ten_zpow_order_quanta hr0
  rw [hr] at hlow hhigh
  have hone : (10 : ℚ) ^ (0 : Int) ≤ N := by
    rw [zpow_zero]
    exact_mod_cast hpos
  have hmax : (N : ℚ) < 10 ^ (16 : Int) := by exact_mod_cast hlt
  have h1 := ten_zpow_lt_iff.mp (hone.trans_lt hhigh)
  have h2 := ten_zpow_lt_iff.mp (hlow.trans_lt hmax)
  exact ⟨by omega, h2, hhigh⟩

/-- The shortest decimal of a whole number below `10 ^ 16` is the number. -/
theorem IsShortest.magnitude_eq (h : IsShortest r n c e) {N : Nat}
    (hr : Binary64.magnitude r = N) (hpos : 0 < N) (hlt : N < 10 ^ 16) : magnitude c e = N := by
  obtain ⟨hzero, hmax, hhigh⟩ := order_of_natCast hr hpos hlt
  have he := h.exponent_eq
  generalize order (quanta r) unit = o at hzero hmax hhigh he
  rcases lt_or_ge 0 e with hpos | hneg
  · -- with fewer digits than the number has, the decimal is a multiple of ten and exact
    have hle : ((c * 10 ^ e.toNat : Nat) : ℚ) ≤ 10 ^ (16 : Int) := by
      rw [← magnitude_of_nonneg c hpos.le]
      calc magnitude c e
        _ ≤ magnitude (10 ^ n) e := magnitude_le_magnitude_iff.mpr h.coefficient_le
        _ = 10 ^ (n + e) := magnitude_ten_pow n e
        _ ≤ 10 ^ (16 : Int) := ten_zpow_le_iff.mpr (by omega)
    have hten : 10 ∣ c * 10 ^ e.toNat :=
      (dvd_pow_self 10 (by omega : e.toNat ≠ 0)).mul_left c
    have hexact := magnitude_nearestRank_of_ten_dvd (by exact_mod_cast hle) hten
    rw [← nearestRank_of_nonneg c hpos.le, h.nearestRank_eq, hr] at hexact
    rw [magnitude_of_nonneg c hpos.le, hexact]
  · -- with enough digits the number itself is a decimal that nothing is nearer to
    have hdigits : N < 10 ^ n := by
      have hlt' := hhigh.trans_le (ten_zpow_le_iff.mpr (by omega : o + 1 ≤ n))
      exact_mod_cast hlt'
    have hrank : nearestRank N 0 = r := nearestRank_eq ((magnitude_zero_right N).trans hr.symm)
    have hnear := h.nearest hrank hdigits
    rw [magnitude_zero_right, hr, sub_self, abs_zero] at hnear
    exact sub_eq_zero.mp (abs_nonpos_iff.mp hnear)

/-- A whole number rounds to a whole number. -/
theorem unit_dvd_quanta_nearestRank (n : Nat) :
    unit ∣ quanta (Binary64.nearestRank (unit * n) 1) := by
  rcases Nat.lt_or_ge n (2 ^ 53) with hlt | hge
  · rw [Binary64.quanta_nearestRank_unit_mul (k := 0) hlt (Nat.one_dvd n)]
    exact Nat.dvd_mul_right unit n
  · -- from `2 ^ 53` on, the spacing of the numbers is a whole number
    have hle := Nat.mul_le_mul_right unit hge
    rw [Binary64.two_pow_mul_unit, Nat.mul_comm n] at hle
    have hrank := Binary64.le_nearestRank_of_two_pow_le hle
    obtain ⟨k, hk⟩ : ∃ k, Binary64.binade (Binary64.nearestRank (unit * n) 1) = k + 1074 := by
      refine ⟨Binary64.binade (Binary64.nearestRank (unit * n) 1) - 1074, ?_⟩
      unfold Binary64.binade
      omega
    rw [quanta, hk, ← Binary64.two_pow_mul_unit, ← Nat.mul_assoc]
    exact Nat.dvd_mul_left unit _

/-- A decimal that is written as a whole number is one. -/
theorem exists_magnitude_eq_natCast (hd : d.coefficient ≠ 0)
    (hlen : d.digits.length ≤ d.leadingExponent + 1) :
    ∃ N : Nat, magnitude d.coefficient d.exponent = N := by
  refine ⟨_, (magnitude_significand hd).symm.trans (magnitude_of_nonneg _ ?_)⟩
  omega

/-- The decimal exponent of a number is at most that of its shortest decimal. -/
theorem IsShortest.order_le (h : IsShortest r n c e) (hc : c ≠ 0) (s : Bool) :
    order (quanta r) unit ≤ (Decimal.mk s c e).leadingExponent := by
  have hpos := h.pos
  have he := h.exponent_eq
  have hle : (10 : ℚ) ^ order (quanta r) unit ≤ magnitude c e :=
    calc (10 : ℚ) ^ order (quanta r) unit
      _ = 10 ^ ((n - 1 : Nat) + e) := by
        congr 1
        omega
      _ = magnitude (10 ^ (n - 1)) e := (magnitude_ten_pow _ e).symm
      _ ≤ magnitude c e := magnitude_le_magnitude_iff.mpr h.le_coefficient
  have hlt := ten_zpow_lt_iff.mp (hle.trans_lt (ten_zpow_leadingExponent (d := ⟨s, c, e⟩) hc).2)
  omega

/-- A number whose shortest decimal is written as a whole number below `10 ^ 16` is one. -/
theorem IsShortest.dvd_quanta (h : IsShortest r n c e) (hr : r ≠ 0)
    (hmax : (Decimal.mk s c e).leadingExponent < 16)
    (hlen : (Decimal.mk s c e).digits.length ≤ (Decimal.mk s c e).leadingExponent + 1) :
    unit ∣ quanta r ∧ quanta r / unit < 10 ^ 16 := by
  have hc : c ≠ 0 := coefficient_ne_zero (d := ⟨s, c, e⟩) h.nearestRank_eq hr
  -- the decimal is a whole number, and what it rounds to is one as well
  obtain ⟨N, hN⟩ := exists_magnitude_eq_natCast (d := ⟨s, c, e⟩) hc hlen
  have hrank : Binary64.nearestRank (unit * N) 1 = r := by
    have hcongr := nearestRank_congr (hN.trans (magnitude_zero_right N).symm)
    rw [← h.nearestRank_eq, hcongr, nearestRank_of_nonneg N le_rfl, Int.toNat_zero, Nat.pow_zero,
      Nat.mul_one]
  have hdvd : unit ∣ quanta r := hrank ▸ unit_dvd_quanta_nearestRank N
  have hvalue := magnitude_eq_natCast_iff.mpr (Nat.mul_div_cancel' hdvd).symm
  have hlt := (ten_zpow_order_quanta hr).2
  have hle := h.order_le hc s
  rw [hvalue] at hlt
  have hmax : ((quanta r / unit : Nat) : ℚ) < 10 ^ (16 : Int) :=
    hlt.trans_le (ten_zpow_le_iff.mpr (by omega))
  exact ⟨hdvd, by exact_mod_cast hmax⟩

end Decimal

/-! ## Plain texts -/

namespace Binary64

open Decimal (signed write_congr)

theorem isIntegral_finite_iff : (finite s a).isIntegral = true ↔ unit ∣ quanta a :=
  beq_iff_eq.trans (Nat.dvd_iff_mod_eq_zero ..).symm

theorem truncate_finite (s : Bool) (a : Fin rankBound) :
    (finite s a).truncate =
      if s then -((quanta a / unit : Nat) : Int) else (quanta a / unit : Nat) := rfl

theorem natAbs_truncate (s : Bool) (a : Fin rankBound) :
    (finite s a).truncate.natAbs = quanta a / unit := by
  rw [truncate_finite]
  cases s
  · exact Int.natAbs_natCast _
  · exact (Int.natAbs_neg _).trans (Int.natAbs_natCast _)

/-- The notation of plain texts. -/
def plainNotation : Decimal.Notation := ⟨-4, 16, false⟩

/-- A whole number other than zero is written with its sign and its digits. -/
theorem toString_truncate (hpos : 0 < quanta a / unit) (s : Bool) :
    toString (finite s a).truncate =
      String.ofList (signed s (Nat.toDigits 10 (quanta a / unit))) := by
  rw [← String.toList_inj, String.toList_ofList, ← natAbs_truncate s a]
  cases s with
  | false => exact Text.toList_toString_of_nonneg (Int.natCast_nonneg _)
  | true => exact Text.toList_toString_of_neg (Int.neg_neg_of_pos (Int.natCast_pos.mpr hpos))

/-- A whole number below `10 ^ 16` is printed with all its digits, which are its shortest text. -/
theorem toString_truncate_eq_write (hdvd : unit ∣ quanta a) (hlt : quanta a / unit < 10 ^ 16)
    (h : a.val = 0 → s = false) :
    toString (finite s a).truncate = (shortest s a).write plainNotation := by
  by_cases ha : a.val = 0
  · have hshortest : shortest s a = ⟨false, 0, 0⟩ := by rw [shortest, if_pos ha, h ha]
    have hzero : (finite s a).truncate = 0 := by
      rw [truncate_finite, ha, quanta_eq_zero_iff.mpr rfl, Nat.zero_div, h ha]
      rfl
    rw [hshortest, hzero]
    decide
  · obtain ⟨n, c, e, hshortest, hs⟩ := Decimal.exists_isShortest s ha a.isLt
    have hquanta : quanta a = unit * (quanta a / unit) := (Nat.mul_div_cancel' hdvd).symm
    have hpos : 0 < quanta a / unit := by
      refine Nat.pos_of_ne_zero fun h0 ↦ ?_
      rw [h0, Nat.mul_zero, quanta_eq_zero_iff] at hquanta
      exact ha hquanta
    have hmagnitude := hs.magnitude_eq (Decimal.magnitude_eq_natCast_iff.mpr hquanta) hpos hlt
    have hc : c ≠ 0 := Decimal.coefficient_ne_zero (d := ⟨s, c, e⟩) hs.nearestRank_eq ha
    have hlen : (Nat.toDigits 10 (quanta a / unit)).length ≤ 16 :=
      (Nat.length_toDigits_le_iff (by decide) (by decide)).mpr hlt
    rw [toString_truncate hpos, hshortest,
      write_congr plainNotation s hc (hmagnitude.trans (Decimal.magnitude_zero_right _).symm)]
    exact (Decimal.write_natCast (by decide) hpos (by exact_mod_cast hlen) s).symm

/-- Other numbers have no final `.0` in their shortest texts. -/
theorem shortestText_eq_write (h : ¬(unit ∣ quanta a ∧ quanta a / unit < 10 ^ 16)) :
    (finite s a).shortestText = (shortest s a).write plainNotation := by
  have ha : a.val ≠ 0 := by
    intro ha
    rw [ha, quanta_eq_zero_iff.mpr rfl, Nat.zero_div] at h
    exact h ⟨Nat.dvd_zero unit, by decide⟩
  obtain ⟨n, c, e, hshortest, hs⟩ := Decimal.exists_isShortest s ha a.isLt
  rw [shortestText, hshortest]
  refine Decimal.write_keepsPoint fun hwhole ↦ h ?_
  exact hs.dvd_quanta ha hwhole.2.1 hwhole.2.2

/-- The plain text of a finite number is that of its shortest decimal. The negative zero is printed
without its sign. -/
theorem plainText_finite (h : a.val = 0 → s = false) :
    (finite s a).plainText = (shortest s a).write plainNotation := by
  unfold plainText
  split
  · next hwhole =>
    rw [isIntegral_finite_iff, natAbs_truncate] at hwhole
    exact toString_truncate_eq_write hwhole.1 hwhole.2 h
  · next hother =>
    rw [isIntegral_finite_iff, natAbs_truncate] at hother
    exact shortestText_eq_write hother

/-- The texts of a finite number are read back. -/
theorem read?_write_shortest (style : Decimal.Notation) (s : Bool) (a : Fin rankBound) :
    read? ((shortest s a).write style) = some (finite s a) := by
  by_cases ha : a.val = 0
  · rw [shortest, if_pos ha]
    exact Decimal.read?_write style ((Decimal.nearestRank_zero 0).trans ha.symm) (.inl rfl)
  · obtain ⟨n, c, e, hshortest, hs⟩ := Decimal.exists_isShortest s ha a.isLt
    rw [hshortest]
    exact Decimal.read?_write style hs.nearestRank_eq (.inr ha)

theorem plainText_zero_true : (zero true).plainText = "0" := by decide +kernel

/-- The plain text of a finite number is read as the number, but for the sign of zero. -/
theorem exists_read?_plainText (hx : x.isFinite = true) :
    ∃ y, read? x.plainText = some y ∧ y.sameNumber x = true ∧ (x ≠ zero true → y = x) := by
  obtain ⟨s, a, rfl⟩ := isFinite_iff_exists.mp hx
  by_cases h : a.val = 0 → s = false
  · refine ⟨finite s a, ?_, sameNumber_finite (.inl rfl), fun _ ↦ rfl⟩
    rw [plainText_finite h, read?_write_shortest]
  · obtain ⟨ha, hs⟩ := Classical.not_imp.mp h
    have hzero : finite s a = zero true := by
      rw [Bool.eq_true_of_not_eq_false hs, zero_eq_finite true ha]
    rw [hzero, plainText_zero_true]
    exact ⟨zero false, by decide +kernel, by decide, fun hne ↦ absurd rfl hne⟩

/-- Without a precision, a number is printed as its shortest text without a final `.0`. The shortest
text shows a decimal with the fewest digits that round to the number, one that is as near to it as
any, positional for decimal exponents from `-4` to `15`. What is printed for a finite number is read
back as that number. The negative zero is the exception: it is printed without its sign. -/
theorem format_none_eq_shortestText :
    (∀ x, x ≠ zero true → format none x = .ok (Decimal.withoutPointZero x.shortestText)) ∧
    format none (zero true) = .ok "0" ∧
    (nan.shortestText = "nan" ∧ (infinite false).shortestText = "inf" ∧
      (infinite true).shortestText = "-inf") ∧
    (∀ s a, ∃ d : Decimal, (finite s a).shortestText = d.write ⟨-4, 16, true⟩ ∧
      d.IsShortestFor (finite s a)) ∧
    ∀ x : Binary64, x.isFinite = true → ∃ text y, format none x = .ok text ∧
      read? text = some y ∧ y.sameNumber x = true ∧ (x ≠ zero true → y = x) := by
  refine ⟨fun x hx ↦ congrArg Except.ok ?_, congrArg Except.ok plainText_zero_true,
    ⟨rfl, rfl, rfl⟩, fun s a ↦ ⟨shortest s a, rfl, Decimal.isShortestFor_shortest s a⟩,
    fun x hx ↦ ?_⟩
  · cases x with
    | nan => decide
    | infinite s => cases s <;> decide
    | finite s a =>
      rw [shortestText, shortestNotation, Decimal.withoutPointZero_write]
      refine plainText_finite fun ha ↦ Bool.eq_false_of_not_eq_true ?_
      rintro rfl
      exact hx (zero_eq_finite true ha).symm
  · obtain ⟨y, hread, hsame, hy⟩ := exists_read?_plainText hx
    exact ⟨x.plainText, y, rfl, hread, hsame, hy⟩

/-- Above `2 ^ 53` a number has other whole numbers around it that round to it. -/
theorem format_none_eq_shortestText_two_pow_53_add_two :
    let x : Binary64 := ofRatio 9007199254740994 1
    x ≠ zero true ∧ x.isFinite = true ∧ format none x = .ok "9007199254740994" ∧
      x.shortestText = "9007199254740994.0" ∧
      format none x = .ok (Decimal.withoutPointZero x.shortestText) ∧
      ∃ text y, format none x = .ok text ∧ read? text = some y ∧ y.sameNumber x = true ∧
        (x ≠ zero true → y = x) := by
  intro x
  have hne : x ≠ zero true := by decide +kernel
  have hfinite : x.isFinite = true := by decide +kernel
  exact ⟨hne, hfinite, by decide +kernel, by decide +kernel, format_none_eq_shortestText.1 x hne,
    format_none_eq_shortestText.2.2.2.2 x hfinite⟩

end Binary64

end UnitCalc
