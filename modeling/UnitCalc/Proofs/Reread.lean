import UnitCalc.Calculator
import UnitCalc.Proofs.Binary64.Rounded
import UnitCalc.Proofs.Binary64.Rounding
import UnitCalc.Proofs.Expr.Dimension
import UnitCalc.Proofs.Quantity.Finite
import UnitCalc.Proofs.Quantity.Printed
import UnitCalc.Proofs.UnitTable.Estimate

/-!
# Calculating with a printed quantity

A printed quantity with a whole magnitude is a text of its own, and calculating it again never gives
a different quantity: without negative exponents it gives the same quantity, and with one it fails,
because the minus sign is taken for a difference.

The difference fails at its first sign. The term before it ends in the unit whose exponent is
negative, which no term after it contains, since the text shows every unit once; so the two sides
differ in the exponent of that unit. This needs to be said while the terms are still being read, so
`IsTerm` records the value of the term so far together with the units that may still follow.
-/

namespace UnitCalc

variable {t : UnitTable} {ds : List UnitDefinition} {b c : BaseUnit} {n : Int} {k : Nat}
  {p q r : Quantity} {d : Dimension} {v l : Layout} {left : Option Layout}
  {es : List (BaseUnit × Int)} {f : Fault} {power : Option Nat}

/-! ## Units of magnitude one -/

theorem Binary64.one_lt_overflowThreshold : 1 < overflowThreshold := by decide +kernel

/-- One is its own power. -/
theorem Binary64.power_one [Platform] (hn : n.natAbs < overflowThreshold) :
    (one false).power n = .ok (one false) := by
  obtain ⟨y, hy⟩ := exists_ofInt?_of_lt hn
  obtain ⟨t, c, rfl⟩ := isFinite_iff_exists.mp (isFinite_of_ofInt? hy)
  unfold power
  rw [hy]
  exact realPower_one_left t c

namespace Dimension

theorem isWritable_iff : d.isWritable = true ↔ ∀ b, Text.isWritable (d.exponent b) = true := by
  simp only [isWritable, toList, List.all_map, List.all_eq_true, Function.comp_apply]
  exact ⟨fun h b ↦ h b b.mem_all, fun h b _ ↦ h b⟩

theorem exponent_ofBaseUnit_pow (b c : BaseUnit) (n : Int) :
    (ofBaseUnit b ^ n).exponent c = if c = b then n else 0 := by
  rw [exponent_pow, ofBaseUnit, exponent_ofFun]
  split
  · exact Int.one_mul n
  · exact Int.zero_mul n

end Dimension

namespace Quantity

/-- A unit of magnitude one changes the dimension alone. -/
theorem mul_one_eq (hp : p.magnitude.isInfinite = false) (d : Dimension) :
    p.mul ⟨.one false, d⟩ = .ok ⟨p.magnitude, p.dimension * d⟩ := by
  have hmul : p.magnitude * .one false = p.magnitude := Binary64.mul_one_eq _ false
  rw [mul, hmul]
  exact bounded_eq_ok_iff.mpr ⟨hp, rfl⟩

theorem add_eq_mismatch (hd : p.dimension ≠ q.dimension) (hp : p.isWritable = true)
    (hq : q.isWritable = true) : p.add q = .error (.mismatch p q) := by
  have hw : (EvaluateError.mismatch p q).isWritable = true := by
    rw [EvaluateError.isWritable, hp, hq, Bool.and_self]
  rw [add, if_neg hd, EvaluateError.fault_of_isWritable hw, Fault.mismatch]

/-- Quantities that differ in dimension have no difference. -/
theorem exists_sub_eq_mismatch (hd : p.dimension ≠ q.dimension)
    (hfinite : q.magnitude.isInfinite = false) (hp : p.isWritable = true)
    (hq : q.isWritable = true) : ∃ r, p.sub q = .error (.mismatch p r) := by
  have hr := neg_eq hfinite
  rw [← isWritable_of_neg hr] at hq
  rw [← dimension_of_scale hr] at hd
  refine ⟨⟨-q.magnitude, q.dimension⟩, ?_⟩
  rw [sub, hr]
  exact add_eq_mismatch hd hp hq

end Quantity

section

variable [Platform]

/-- A base unit raised to a power in the range of binary64. -/
theorem UnitTable.Solves.evaluate_layout (ht : t.Solves ds)
    (hpower : power.getD 1 < Binary64.overflowThreshold) :
    (b.layout power).expr.evaluate t =
      .ok ⟨.one false, .ofBaseUnit b ^ ((power.getD 1 : Nat) : Int)⟩ := by
  have hlookup : t.lookup (String.ofList (b.layout power).letters) = .ok (.ofBaseUnit b) := by
    rw [BaseUnit.layout, String.ofList_toList, lookup, ht.base b]
  cases power with
  | none =>
    have hdim : Dimension.ofBaseUnit b ^ (1 : Int) = .ofBaseUnit b := by
      ext c
      rw [Dimension.exponent_pow, Int.mul_one]
    refine hlookup.trans ?_
    rw [Option.getD_none, Nat.cast_one, hdim]
    rfl
  | some k =>
    have hpow := Binary64.power_one (n := k) hpower
    refine (Expr.evaluate_unitPower ..).trans (bind_eq_ok_iff.mpr ⟨_, hlookup, ?_⟩)
    rw [Quantity.pow_eq_ok_iff]
    exact ⟨_, hpow, rfl⟩

/-! ## Terms -/

/-- A term that has the value `q`, to which units of the bases in `es` may be added: none of them
occurs in it yet. -/
structure IsTerm (t : UnitTable) (v : Layout) (q : Quantity) (es : List (BaseUnit × Int)) :
    Prop where
  evaluate : v.expr.evaluate t = .ok q
  isInfinite : q.magnitude.isInfinite = false
  isWritable : q.isWritable = true
  fresh : ∀ e ∈ es, q.dimension.exponent e.1 = 0

namespace IsTerm

/-- A number is a term. -/
theorem integer {x : Binary64} (hx : Binary64.ofInt? k = some x) (es : List (BaseUnit × Int)) :
    IsTerm t (.integer k) (.ofNumber x) es where
  evaluate := by
    rw [Layout.expr, Expr.evaluate_integer, hx]
  isInfinite := (Binary64.isFinite_iff.mp (Binary64.isFinite_of_ofInt? hx)).1
  isWritable := by
    refine Dimension.isWritable_iff.mpr fun b ↦ Binary64.isWritable_of_lt ?_
    rw [Quantity.ofNumber, Dimension.exponent_dimensionless]
    decide +kernel
  fresh e _ := Dimension.exponent_dimensionless e.1

/-- A unit that is new to a term may be added to it. -/
theorem suffixed (hv : IsTerm t v q ((b, n) :: es)) (ht : t.Solves ds)
    (hb : b ∉ es.map Prod.fst) (power : Option Nat)
    (hpower : power.getD 1 < Binary64.overflowThreshold) :
    IsTerm t (.suffixed v (b.layout power))
      ⟨q.magnitude, q.dimension * .ofBaseUnit b ^ ((power.getD 1 : Nat) : Int)⟩ es where
  evaluate := by
    rw [Layout.expr, Expr.evaluate_suffixed, hv.evaluate, ht.evaluate_layout hpower]
    exact Quantity.mul_one_eq hv.isInfinite _
  isInfinite := hv.isInfinite
  isWritable := by
    refine Dimension.isWritable_iff.mpr fun c ↦ ?_
    rw [Dimension.exponent_mul, Dimension.exponent_ofBaseUnit_pow]
    by_cases hc : c = b
    · have hfresh : q.dimension.exponent c = 0 := hc ▸ hv.fresh (b, n) (by simp)
      rw [if_pos hc, hfresh, Int.zero_add]
      exact Binary64.isWritable_of_lt hpower
    · rw [if_neg hc, Int.add_zero]
      exact Dimension.isWritable_iff.mp hv.isWritable c
  fresh e he := by
    have hne : e.1 ≠ b := fun h ↦ hb (h ▸ List.mem_map_of_mem he)
    rw [Dimension.exponent_mul, Dimension.exponent_ofBaseUnit_pow, if_neg hne, Int.add_zero]
    exact hv.fresh e (by simp [he])

end IsTerm

end

/-! ## The tree of a printed quantity -/

namespace Printed

/-- Factors with every base once and with exponents in the range of binary64. -/
structure IsFactors (es : List (BaseUnit × Int)) : Prop where
  nodup : (es.map Prod.fst).Nodup
  natAbs_lt : ∀ e ∈ es, e.2.natAbs < Binary64.overflowThreshold

theorem IsFactors.cons (h : IsFactors ((b, n) :: es)) :
    b ∉ es.map Prod.fst ∧ n.natAbs < Binary64.overflowThreshold ∧ IsFactors es := by
  obtain ⟨hb, hnodup⟩ := List.nodup_cons.mp h.nodup
  obtain ⟨hn, hes⟩ := List.forall_mem_cons.mp h.natAbs_lt
  exact ⟨hb, hn, hnodup, hes⟩

section

variable [Platform]

theorem evaluate_close (l v : Layout) : (close (some l) v).expr.evaluate t =
    l.expr.evaluate t >>= fun p ↦ v.expr.evaluate t >>= fun q ↦ p.sub q := rfl

/-- A failure on the left of a difference is that of all of it. -/
theorem evaluate_layout_of_error (h : l.expr.evaluate t = .error f) (v : Layout)
    (es : List (BaseUnit × Int)) : (layout (some l) v es).expr.evaluate t = .error f := by
  have hclose (l v : Layout) (h : l.expr.evaluate t = .error f) :
      (close (some l) v).expr.evaluate t = .error f := by
    rw [evaluate_close, h]
    rfl
  induction es generalizing l v with
  | nil => exact hclose l v h
  | cons e es ih =>
    obtain ⟨b, n⟩ := e
    rcases Int.lt_or_le n 0 with hn | hn
    · rw [layout_cons_of_neg _ v hn]
      exact ih (hclose _ _ h) _
    · rw [layout_cons_of_nonneg _ v hn]
      exact ih h _

/-- A difference of terms fails if they differ in the exponent of a base. -/
theorem evaluate_close_of_ne (hl : l.expr.evaluate t = .ok p) (hp : p.isWritable = true)
    (hv : IsTerm t v q es) (hne : p.dimension.exponent b ≠ q.dimension.exponent b) :
    ∃ r s, (close (some l) v).expr.evaluate t = .error (.mismatch r s) := by
  have hd : p.dimension ≠ q.dimension := fun h ↦ hne (h ▸ rfl)
  obtain ⟨r, hr⟩ := Quantity.exists_sub_eq_mismatch hd hv.isInfinite hp hv.isWritable
  refine ⟨p, r, ?_⟩
  rw [evaluate_close, hl, hv.evaluate]
  exact hr

/-- Units that are added to the right-hand side of a difference do not make up for the exponent of
another base. -/
theorem evaluate_layout_of_ne (ht : t.Solves ds) (hl : l.expr.evaluate t = .ok p)
    (hp : p.isWritable = true) (hv : IsTerm t v q es) (hes : IsFactors es)
    (hb : b ∉ es.map Prod.fst) (hne : p.dimension.exponent b ≠ q.dimension.exponent b) :
    ∃ r s, (layout (some l) v es).expr.evaluate t = .error (.mismatch r s) := by
  induction es generalizing v q with
  | nil => exact evaluate_close_of_ne hl hp hv hne
  | cons e es ih =>
    obtain ⟨c, n⟩ := e
    obtain ⟨hc, hn, hes⟩ := hes.cons
    obtain ⟨hbc, hb⟩ : b ≠ c ∧ b ∉ es.map Prod.fst := by simpa using hb
    have hkeep (m : Int) : p.dimension.exponent b ≠
        (q.dimension * .ofBaseUnit c ^ m).exponent b := by
      rwa [Dimension.exponent_mul, Dimension.exponent_ofBaseUnit_pow, if_neg hbc, Int.add_zero]
    rcases Int.lt_or_le n 0 with hneg | hnonneg
    · -- the next sign ends this difference, which has failed whatever follows
      have hterm := hv.suffixed ht hc none Binary64.one_lt_overflowThreshold
      obtain ⟨r, s, hrs⟩ := evaluate_close_of_ne hl hp hterm (hkeep _)
      rw [layout_cons_of_neg _ v hneg]
      exact ⟨r, s, evaluate_layout_of_error hrs _ _⟩
    · rw [layout_cons_of_nonneg _ v hnonneg]
      exact ih (hv.suffixed ht hc (some n.natAbs) hn) hes hb (hkeep _)

/-- A negative exponent leads to a mismatch: only the term before its sign has the unit. -/
theorem evaluate_layout_of_neg (ht : t.Solves ds) (hv : IsTerm t v q es) (hes : IsFactors es)
    (hneg : ∃ e ∈ es, e.2 < 0) :
    ∃ r s, (layout none v es).expr.evaluate t = .error (.mismatch r s) := by
  induction es generalizing v q with
  | nil =>
    obtain ⟨e, he, -⟩ := hneg
    cases he
  | cons e es ih =>
    obtain ⟨b, n⟩ := e
    obtain ⟨hb, hn, hes⟩ := hes.cons
    rcases Int.lt_or_le n 0 with hlt | hle
    · -- `v` and one unit `b` on the left, a number and no unit `b` on the right
      have hl := hv.suffixed ht hb none Binary64.one_lt_overflowThreshold
      obtain ⟨x, hx⟩ := Binary64.exists_ofInt?_of_lt (n := n.natAbs) hn
      rw [layout_cons_of_neg _ v hlt]
      refine evaluate_layout_of_ne ht hl.evaluate hl.isWritable (.integer hx es) hes hb ?_
      have hfresh : q.dimension.exponent b = 0 := hv.fresh (b, n) (by simp)
      have hnumber : (Quantity.ofNumber x).dimension.exponent b = 0 :=
        Dimension.exponent_dimensionless b
      rw [Dimension.exponent_mul, Dimension.exponent_ofBaseUnit_pow, if_pos rfl, hfresh, hnumber]
      decide
    · obtain ⟨e, he, hlt⟩ := hneg
      have he : e ∈ es := by
        rcases List.mem_cons.mp he with rfl | he
        · exact absurd hlt (Int.not_lt.mpr hle)
        · exact he
      rw [layout_cons_of_nonneg _ v hle]
      exact ih (hv.suffixed ht hb (some n.natAbs) hn) hes ⟨e, he, hlt⟩

/-- Without negative exponents the factors are multiplied. -/
theorem evaluate_layout_of_nonneg (ht : t.Solves ds) (hv : IsTerm t v q es) (hes : IsFactors es)
    (hnonneg : ∀ e ∈ es, 0 ≤ e.2) : (layout none v es).expr.evaluate t =
      .ok ⟨q.magnitude, es.foldl (fun d e ↦ d * .ofBaseUnit e.1 ^ e.2) q.dimension⟩ := by
  induction es generalizing v q with
  | nil => exact hv.evaluate
  | cons e es ih =>
    obtain ⟨b, n⟩ := e
    obtain ⟨hb, hn, hes⟩ := hes.cons
    obtain ⟨hle, hnonneg⟩ := List.forall_mem_cons.mp hnonneg
    have hterm := hv.suffixed ht hb (some n.natAbs) hn
    rw [layout_cons_of_nonneg _ v hle, ih hterm hes hnonneg, List.foldl_cons, Option.getD_some,
      Int.natAbs_of_nonneg hle]

end

end Printed

/-! ## Factors of a dimension -/

namespace Dimension

theorem isFactors_entries (hd : ∀ b, (d.exponent b).natAbs < Binary64.overflowThreshold) :
    Printed.IsFactors d.entries where
  nodup := by
    have hall : (BaseUnit.all.map fun b ↦ (b, d.exponent b)).map Prod.fst = BaseUnit.all := by
      rw [List.map_map]
      exact List.map_id _
    refine (List.filter_sublist.map Prod.fst).nodup ?_
    rw [hall]
    decide
  natAbs_lt := by
    rintro ⟨b, n⟩ he
    obtain ⟨rfl, -⟩ := mem_entries_iff.mp he
    exact hd b

/-- A dimension is the product of its factors. -/
theorem foldl_entries (d : Dimension) :
    d.entries.foldl (fun d e ↦ d * ofBaseUnit e.1 ^ e.2) dimensionless = d := by
  have hzero (e : Dimension) (b : BaseUnit) : e * ofBaseUnit b ^ (0 : Int) = e := by
    ext c
    rw [exponent_mul, exponent_pow, Int.mul_zero, Int.add_zero]
  -- factors with exponent zero may be put back
  have hskip : d.entries.foldl (fun d e ↦ d * ofBaseUnit e.1 ^ e.2) dimensionless =
      BaseUnit.all.foldl (fun e b ↦ e * ofBaseUnit b ^ d.exponent b) dimensionless := by
    rw [entries, List.foldl_filter, List.foldl_map]
    congr 1
    funext e b
    by_cases hb : d.exponent b = 0
    · simp [hb, hzero]
    · simp [hb]
  rw [hskip]
  ext c
  cases c <;> simp [BaseUnit.all, ofBaseUnit]

end Dimension

/-! ## Printed quantities -/

section

variable [Platform]

namespace Quantity

theorem calculate_printed (hm : 0 ≤ q.magnitude.truncate) :
    calculate (" ".intercalate q.printedWords) = q.printedLayout.expr.evaluate .standard := by
  rw [calculate, UnitTable.calculate, read_printed hm]
  rfl

/-- The digits of a whole magnitude are a term with that magnitude. -/
theorem exists_isTerm_magnitude (hi : q.magnitude.isIntegral = true)
    (hm : 0 ≤ q.magnitude.truncate) (es : List (BaseUnit × Int)) :
    ∃ x, x.sameNumber q.magnitude = true ∧
      IsTerm t (.integer q.magnitude.truncate.natAbs) (.ofNumber x) es := by
  obtain ⟨x, hx, hsame⟩ := Binary64.exists_ofInt?_truncate hi
  rw [← Int.natAbs_of_nonneg hm] at hx
  exact ⟨x, hsame, .integer hx es⟩

theorem calculate_printed_of_nonneg (hi : q.magnitude.isIntegral = true)
    (hm : 0 ≤ q.magnitude.truncate)
    (hd : ∀ b, (q.dimension.exponent b).natAbs < Binary64.overflowThreshold)
    (hnonneg : ∀ b, 0 ≤ q.dimension.exponent b) :
    ∃ r, calculate (" ".intercalate q.printedWords) = .ok r ∧ r.sameQuantity q = true := by
  have ht := UnitTable.solves_standard
  obtain ⟨x, hsame, hterm⟩ := exists_isTerm_magnitude hi hm q.dimension.entries
  have hentries : ∀ e ∈ q.dimension.entries, 0 ≤ e.2 := by
    rintro ⟨b, n⟩ he
    obtain ⟨rfl, -⟩ := Dimension.mem_entries_iff.mp he
    exact hnonneg b
  have hvalue := Printed.evaluate_layout_of_nonneg ht hterm
    (q.dimension.isFactors_entries hd) hentries
  rw [ofNumber, Dimension.foldl_entries] at hvalue
  refine ⟨⟨x, q.dimension⟩, (calculate_printed hm).trans hvalue, ?_⟩
  rw [sameQuantity, hsame, beq_self_eq_true, Bool.and_self]

theorem calculate_printed_of_neg (hi : q.magnitude.isIntegral = true)
    (hm : 0 ≤ q.magnitude.truncate)
    (hd : ∀ b, (q.dimension.exponent b).natAbs < Binary64.overflowThreshold)
    (hneg : ∃ b, q.dimension.exponent b < 0) :
    ∃ l r, calculate (" ".intercalate q.printedWords) = .error (.mismatch l r) := by
  have ht := UnitTable.solves_standard
  obtain ⟨x, -, hterm⟩ := exists_isTerm_magnitude hi hm q.dimension.entries
  obtain ⟨b, hb⟩ := hneg
  have hentry : (b, q.dimension.exponent b) ∈ q.dimension.entries :=
    Dimension.mem_entries_iff.mpr ⟨rfl, hb.ne⟩
  obtain ⟨l, r, hvalue⟩ := Printed.evaluate_layout_of_neg ht hterm
    (q.dimension.isFactors_entries hd) ⟨_, hentry, hb⟩
  exact ⟨l, r, (calculate_printed hm).trans hvalue⟩

end Quantity

/-- A printed quantity is never misread. With a whole magnitude below `10 ^ 16` and without a given
precision it is printed as a text that gives the same quantity again if no exponent is negative, and
that cannot be calculated otherwise, since the dimensions of a difference do not match. -/
theorem calculate_formatWith {settings : Settings} {q : Quantity}
    (hsettings : settings.precision = none) (hintegral : q.magnitude.isIntegral = true)
    (hnonneg : 0 ≤ q.magnitude.truncate) (hlt : q.magnitude.truncate < 10 ^ 16)
    (hexponent : ∀ b, (q.dimension.exponent b).natAbs < Binary64.overflowThreshold) :
    ∃ text, q.formatWith settings none = .ok text ∧
      ((∀ b, 0 ≤ q.dimension.exponent b) →
        ∃ r, calculate text = .ok r ∧ r.sameQuantity q = true) ∧
      ((∃ b, q.dimension.exponent b < 0) →
        ∃ l r, calculate text = .error (.failure (.evaluate (.mismatch l r)))) ∧
      ∀ r, calculate text = .ok r → r.sameQuantity q = true := by
  have hwritable : q.isWritable = true :=
    Dimension.isWritable_iff.mpr fun b ↦ Binary64.isWritable_of_lt (hexponent b)
  have hsame := Quantity.calculate_printed_of_nonneg hintegral hnonneg hexponent
  have hfail := Quantity.calculate_printed_of_neg hintegral hnonneg hexponent
  refine ⟨_, Quantity.formatWith_none hsettings hintegral (by omega) hwritable, hsame, hfail, ?_⟩
  intro r hr
  by_cases hneg : ∃ b, q.dimension.exponent b < 0
  · obtain ⟨l, m, hmismatch⟩ := hfail hneg
    rw [hmismatch] at hr
    cases hr
  · push Not at hneg
    obtain ⟨r', hr', hequal⟩ := hsame hneg
    cases hr.symm.trans hr'
    exact hequal

end

open Rounded in
/-- Two meter moles are read back, and two newtons, which have a negative exponent, are not. -/
theorem calculate_formatWith_newton :
    let settings : Settings := {}
    let meterMole : Quantity := ⟨.ofRatio 2 1, { meter := 1, mole := 1 }⟩
    let newton : Quantity := ⟨.ofRatio 2 1, { meter := 1, second := -2, kilogram := 1 }⟩
    (meterMole.formatWith settings none = .ok "2 m1 mol1" ∧
      ∃ r, calculate "2 m1 mol1" = .ok r ∧ r.sameQuantity meterMole = true) ∧
    newton.formatWith settings none = .ok "2 m1 s-2 kg1" ∧
      ∃ l r, calculate "2 m1 s-2 kg1" = .error (.failure (.evaluate (.mismatch l r))) := by
  intro settings meterMole newton
  have hmole : meterMole.formatWith settings none = .ok "2 m1 mol1" := by decide +kernel
  have hnewton : newton.formatWith settings none = .ok "2 m1 s-2 kg1" := by decide +kernel
  obtain ⟨text, htext, hsame, -⟩ := @calculate_formatWith _ settings meterMole rfl
    (by decide +kernel) (by decide +kernel) (by decide +kernel)
    (by intro b; cases b <;> decide +kernel)
  obtain ⟨text', htext', -, hfail, -⟩ := @calculate_formatWith _ settings newton rfl
    (by decide +kernel) (by decide +kernel) (by decide +kernel)
    (by intro b; cases b <;> decide +kernel)
  cases hmole.symm.trans htext
  cases hnewton.symm.trans htext'
  exact ⟨⟨hmole, hsame (by intro b; cases b <;> decide)⟩, hnewton, hfail ⟨.second, by decide⟩⟩

end UnitCalc
