import Mathlib.Algebra.BigOperators.Group.List.Basic
import UnitCalc.Proofs.Expr.Read
import UnitCalc.Proofs.Reread
import UnitCalc.Proofs.Token.Legality

/-!
# Exponents of results

How large an exponent can the result of a calculation have? Only a power multiplies exponents, and
it succeeds only if its own exponent is in the range of binary64; products and quotients add
exponents, and sums keep them. So the exponents of a value are bounded by the number of units in
its expression, and that number by the length of the text.

An exponent that is too long to write thus needs a text that is longer than any that can be entered:
`isWritable_of_calculate`.
-/

namespace UnitCalc

variable {t : UnitTable} {p q r : Quantity} {d e : Dimension} {x : Expr} {k l n : Nat}
  {ts : List Token} {category : Category} {text : String}

/-! ## Bounds on dimensions -/

namespace Dimension

/-- No exponent exceeds `k`, whatever its sign. -/
def IsWithin (d : Dimension) (k : Nat) : Prop := ∀ b, (d.exponent b).natAbs ≤ k

theorem isWithin_dimensionless (k : Nat) : dimensionless.IsWithin k := by
  intro b
  rw [exponent_dimensionless]
  exact Nat.zero_le k

theorem IsWithin.mono (hd : d.IsWithin k) (hkl : k ≤ l) : d.IsWithin l :=
  fun b ↦ (hd b).trans hkl

theorem IsWithin.mul (hd : d.IsWithin k) (he : e.IsWithin l) : (d * e).IsWithin (k + l) := by
  intro b
  rw [exponent_mul]
  exact (Int.natAbs_add_le _ _).trans (Nat.add_le_add (hd b) (he b))

theorem IsWithin.div (hd : d.IsWithin k) (he : e.IsWithin l) : (d / e).IsWithin (k + l) := by
  intro b
  rw [exponent_div]
  exact (Int.natAbs_sub_le _ _).trans (Nat.add_le_add (hd b) (he b))

theorem IsWithin.pow {m : Int} (hd : d.IsWithin k) (hm : m.natAbs ≤ l) :
    (d ^ m).IsWithin (k * l) := by
  intro b
  rw [exponent_pow, Int.natAbs_mul]
  exact Nat.mul_le_mul (hd b) hm

theorem IsWithin.isWritable (hd : d.IsWithin k) (hk : k < 10 ^ Text.digitLimit) :
    d.isWritable = true := by
  rw [isWritable_iff]
  intro b
  rw [Text.isWritable, decide_eq_true_eq]
  exact (hd b).trans_lt hk

end Dimension

/-! ## Operations -/

/-- The exponent of a power that succeeds is in the range of binary64. -/
theorem Binary64.natAbs_lt_of_power [Platform] {x y : Binary64} {m : Int} (h : x.power m = .ok y) :
    m.natAbs < overflowThreshold := by
  by_contra hle
  have hnone : ofInt? m = none := ofInt?_eq_none_iff.mpr (Nat.not_lt.mp hle)
  unfold power at h
  rw [hnone] at h
  cases h

theorem Operation.isWithin_of_run [Platform] {op : Operation} (hp : p.dimension.IsWithin k)
    (hq : q.dimension.IsWithin l) (h : op.run p q = .ok r) : r.dimension.IsWithin (k + l) := by
  have hr := dimension?_of_run h
  cases op with
  | add | sub =>
    rw [dimension?, Option.ite_none_right_eq_some] at hr
    rw [← Option.some.inj hr.2]
    exact hp.mono (Nat.le_add_right k l)
  | mul =>
    rw [← Option.some.inj hr]
    exact hp.mul hq
  | div =>
    rw [← Option.some.inj hr]
    exact hp.div hq

/-! ## Expressions -/

/-- No unit of the table has an exponent that exceeds `k`. -/
def UnitTable.IsWithin (t : UnitTable) (k : Nat) : Prop :=
  ∀ symbol q, t.get? symbol = some q → q.dimension.IsWithin k

theorem UnitTable.IsWithin.lookup {symbol : String} (ht : t.IsWithin k)
    (h : t.lookup symbol = .ok q) : q.dimension.IsWithin k := by
  have hd := Expr.dimension?_of_lookup h
  obtain ⟨q', hq', hdim⟩ := Option.map_eq_some_iff.mp hd
  rw [← hdim]
  exact ht symbol q' hq'

namespace Expr

/-- The number of units in an expression. -/
def unitCount : Expr → Nat
  | integer _ | decimal _ | foreign _ => 0
  | unit _ | unitPower .. => 1
  | suffixed value suffix => value.unitCount + suffix.unitCount
  | binary left _ right => left.unitCount + right.unitCount

/-- Each unit of an expression contributes at most the greatest power of the greatest exponent. -/
theorem isWithin_of_evaluate [Platform] (ht : t.IsWithin k) (h : x.evaluate t = .ok q) :
    q.dimension.IsWithin (x.unitCount * (k * Binary64.overflowThreshold)) := by
  induction x generalizing q with
  | integer value =>
    rw [evaluate_integer] at h
    split at h
    · cases h
      exact Dimension.isWithin_dimensionless _
    · cases h
  | decimal value =>
    cases h
    exact Dimension.isWithin_dimensionless _
  | unit symbol =>
    rw [unitCount, Nat.one_mul]
    exact (ht.lookup h).mono (Nat.le_mul_of_pos_right k Binary64.one_lt_overflowThreshold.le)
  | unitPower symbol power =>
    rw [evaluate_unitPower] at h
    obtain ⟨p, hp, h⟩ := bind_eq_ok_iff.mp h
    obtain ⟨y, hpower, rfl⟩ := Quantity.pow_eq_ok_iff.mp h
    rw [unitCount, Nat.one_mul]
    exact (ht.lookup hp).pow (Binary64.natAbs_lt_of_power hpower).le
  | suffixed value suffix ihv ihs =>
    rw [evaluate_suffixed] at h
    obtain ⟨p, hp, h⟩ := bind_eq_ok_iff.mp h
    obtain ⟨p', hp', h⟩ := bind_eq_ok_iff.mp h
    rw [Quantity.dimension_of_mul h, unitCount, Nat.add_mul]
    exact (ihv hp).mul (ihs hp')
  | binary left operator right ihl ihr =>
    rw [evaluate_binary] at h
    split at h
    · cases h
    · obtain ⟨p, hp, h⟩ := bind_eq_ok_iff.mp h
      obtain ⟨p', hp', h⟩ := bind_eq_ok_iff.mp h
      rw [unitCount, Nat.add_mul]
      exact Operation.isWithin_of_run (ihl hp) (ihr hp') h
  | foreign value => cases h

end Expr

/-! ## Texts -/

theorem DerivesUnit.unitCount_le (h : DerivesUnit ts x) : x.unitCount ≤ ts.length := by
  cases h with
  | plain => exact Nat.le_refl 1
  | power => exact Nat.le_succ 1

/-- Every unit of an expression has a token of its own. -/
theorem Derives.unitCount_le (h : Derives category ts x) : x.unitCount ≤ ts.length := by
  induction h with
  | integer | decimal => exact Nat.zero_le 1
  | unit hu => exact hu.unitCount_le
  | parentheses _ ih =>
    rw [List.length_append, List.length_cons]
    omega
  | ofPrimary _ ih | ofOperand _ ih | ofProduct _ ih => exact ih
  | suffixed _ hu ih =>
    rw [Expr.unitCount, List.length_append]
    exact Nat.add_le_add ih hu.unitCount_le
  | product operator _ _ ihl ihr | sum operator _ _ ihl ihr =>
    rw [Expr.unitCount, List.length_append, List.length_cons]
    omega

/-- Every token has a character of its own. -/
theorem Token.Spell.length_le {cs : List Char} (h : Spell ts cs) : ts.length ≤ cs.length := by
  have hpos : ∀ n ∈ ts.map fun t ↦ t.chars.length, 1 ≤ n := by
    intro n hn
    obtain ⟨t, ht, rfl⟩ := List.mem_map.mp hn
    exact List.length_pos_iff.mpr (h.canonical t ht).chars_ne_nil
  have hsum := List.length_le_sum_of_one_le _ hpos
  rwa [List.length_map, ← List.length_flatMap, h.chars] at hsum

namespace Expr

theorem unitCount_le_of_read (h : read text = .ok x) : x.unitCount ≤ text.length := by
  obtain ⟨ts, hspell, hd⟩ := read_eq_ok_iff.mp h
  calc x.unitCount
    _ ≤ ts.length := hd.unitCount_le
    _ ≤ (Text.withoutBlanks text.toList).length := hspell.length_le
    _ ≤ text.toList.length := List.length_filter_le _ _
    _ = text.length := String.length_toList

end Expr

/-! ## The standard units -/

section

variable [Platform]

/-- No standard unit has an exponent greater than that of a volume. -/
theorem UnitTable.isWithin_standard : standard.IsWithin 3 := by
  intro symbol q hq b
  have hall := dimension_of_get?_standard
    (P := fun d ↦ BaseUnit.all.all fun b ↦ (d.exponent b).natAbs ≤ 3) (by decide +kernel) hq
  exact of_decide_eq_true (List.all_eq_true.mp hall b b.mem_all)

/-- The exponents of a result are bounded by the length of the text. -/
theorem isWithin_of_calculate (h : calculate text = .ok q) :
    q.dimension.IsWithin (text.length * (3 * Binary64.overflowThreshold)) := by
  obtain ⟨x, hread, hvalue⟩ := bind_eq_ok_iff.mp h
  refine (Expr.isWithin_of_evaluate UnitTable.isWithin_standard hvalue).mono ?_
  exact Nat.mul_le_mul_right _ (Expr.unitCount_le_of_read hread)

/-- A result may be written unless the text has more than `10 ^ 3991` characters. -/
theorem isWritable_of_calculate (h : calculate text = .ok q)
    (htext : text.length ≤ 10 ^ (Text.digitLimit - 309)) : q.isWritable = true := by
  refine (isWithin_of_calculate h).isWritable ?_
  have hlarge : 3 * Binary64.overflowThreshold < 10 ^ 309 := by decide +kernel
  have hlimit : 309 ≤ Text.digitLimit := by decide
  rw [← Nat.pow_sub_mul_pow 10 hlimit]
  exact Nat.mul_lt_mul_of_le_of_lt htext hlarge (Nat.pow_pos (by decide))

end

end UnitCalc
