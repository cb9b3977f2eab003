import UnitCalc.Proofs.Binary64.Rounded
import UnitCalc.Proofs.Expr.Read
import UnitCalc.Proofs.Quantity.Finite
import UnitCalc.Proofs.UnitTable.Estimate

/-!
# Results are finite

A calculation never returns an infinite or undefined magnitude. The operations keep magnitudes
finite, so it is enough that they start from finite ones: the units of the table and the literals of
the expression.

For a table that is an induction along its definitions: a new unit is a product of powers of units
that are there. For a text it is a bound on the literals, the only place where numbers are added
without a check. The whole part of a literal is finite, and each digit after the point adds less
than half the spacing of the largest numbers, so the sum does not overflow however many digits
follow.
-/

namespace UnitCalc

variable {t u : UnitTable} {d : UnitDefinition} {ds : List UnitDefinition} {v q : Quantity}
  {terms : List (String × Int)} {ts : List Token} {e : Expr} {category : Category} {c : Char}
  {n place : Nat} {digits fraction : List Char} {x : Binary64}

/-! ## Literals -/

namespace Binary64

theorem ofRatio_one_eq (hn : n < overflowThreshold) : ∃ a : Fin rankBound,
    ofRatio n 1 = finite false a ∧ a.val = nearestRank (unit * n) 1 := by
  have hrank := nearestRank_unit_mul_lt_iff.mpr hn
  exact ⟨⟨_, hrank⟩, ofRank_of_lt false hrank, rfl⟩

/-- A positive whole number is at least one. -/
theorem unit_le_quanta (hn : 0 < n) : unit ≤ quanta (nearestRank (unit * n) 1) := by
  have hle : unit ≤ unit * n := Nat.le_mul_of_pos_right _ hn
  obtain ⟨k, hunit⟩ : ∃ k, unit = 2 ^ (53 + k) := ⟨1021, by decide +kernel⟩
  rw [hunit] at hle ⊢
  exact two_pow_le_quanta_nearestRank hle

/-- A quotient of one and a whole number is small. -/
theorem isBelow_one_div (hn : 0 < n) (hlt : n < overflowThreshold) :
    (one false / ofRatio n 1).IsBelow (53 + 1023) := by
  obtain ⟨b, hb, hrank⟩ := ofRatio_one_eq hlt
  have hquanta : unit ≤ quanta b := hrank ▸ unit_le_quanta hn
  have hne : b.val ≠ 0 := fun h0 ↦ by
    rw [h0] at hquanta
    exact absurd unit_pos (Nat.not_lt.mpr hquanta)
  rw [hb, one_div_finite hne]
  refine isBelow_ofQuanta _ (unit_pos.trans_le hquanta) (by decide) ?_
  have hunit : unit < 2 ^ (52 + 1023) := by decide +kernel
  calc unit * unit
    _ ≤ unit * quanta b := Nat.mul_le_mul_left _ hquanta
    _ < 2 ^ (52 + 1023) * quanta b :=
      Nat.mul_lt_mul_of_pos_right hunit (unit_pos.trans_le hquanta)

theorem isBelow_ofRatio_one {k m : Nat} (hn : n < 2 ^ m) (hm : m + 1074 = 52 + k)
    (hk : k ≤ 2045) : (ofRatio n 1).IsBelow (53 + k) := by
  refine isBelow_ofQuanta false Nat.one_pos hk ?_
  rw [← hm, ← two_pow_mul_unit, Nat.mul_one, Nat.mul_comm unit]
  exact Nat.mul_lt_mul_of_pos_right hn unit_pos

end Binary64

namespace Literal

theorem isBelow_placeValue (h : place ≤ 308) :
    (Binary64.one false / .ofRatio (10 ^ place) 1).IsBelow (53 + 1023) :=
  Binary64.isBelow_one_div (Nat.pow_pos (by decide)) (Binary64.ten_pow_lt_iff.mpr h)

/-- What a digit after the point adds is small. -/
theorem isBelow_digit (hplace : place ≤ 308) (hc : c.isDigit = true) :
    (.ofRatio (c.toNat - '0'.toNat) 1 * (.one false / .ofRatio (10 ^ place) 1) :
      Binary64).IsBelow (53 + 1029) := by
  have hdigit : (Binary64.ofRatio (c.toNat - '0'.toNat) 1).IsBelow (53 + 1026) := by
    have hhigh : c.toNat ≤ 0x39 := (toNat_of_isDigit hc).2
    have hzero : '0'.toNat = 0x30 := rfl
    exact Binary64.isBelow_ofRatio_one (m := 4) (by omega) (by decide) (by decide)
  exact hdigit.mul (isBelow_placeValue hplace) (k := 1029) (by decide) (by decide)

/-- A digit after the point does not lead out of the finite numbers. -/
theorem isFinite_addDigit (hx : x.isFinite = true) (hplace : place ≤ 308)
    (hc : c.isDigit = true) :
    (addDigit x (.one false / .ofRatio (10 ^ place) 1) c).isFinite = true :=
  Binary64.isFinite_add_of_isBelow hx ((isBelow_digit hplace hc).mono (by decide))

/-- The value of a literal is finite. -/
theorem isFinite_decimal (hwhole : whole digits < Binary64.overflowThreshold)
    (hdigits : ∀ c ∈ fraction, c.isDigit = true) (hlen : fraction.length ≤ 308) :
    (decimal digits fraction).isFinite = true := by
  induction fraction using List.reverseRecOn with
  | nil =>
    obtain ⟨a, ha, -⟩ := Binary64.ofRatio_one_eq hwhole
    rw [decimal, List.zipIdx_nil, List.foldl_nil, ha, Binary64.isFinite_finite]
  | append_singleton fraction c ih =>
    obtain ⟨hfraction, hc⟩ := List.forall_mem_append.mp hdigits
    rw [List.length_append, List.length_singleton] at hlen
    rw [decimal_concat]
    exact isFinite_addDigit (ih hfraction (by omega)) hlen (hc c (by simp))

end Literal

/-! ## Tables -/

namespace UnitTable

/-- Every unit has a finite magnitude. -/
def IsFinite (t : UnitTable) : Prop := ∀ unit ∈ t.units, unit.2.IsFinite

theorem isFinite_base : base.IsFinite := by
  rw [IsFinite, units_base]
  intro unit hunit
  obtain ⟨row, -, rfl⟩ := List.mem_map.mp hunit
  exact Quantity.isFinite_ofBaseUnit row.2.2

theorem IsFinite.get? {symbol : String} (ht : t.IsFinite) (h : t.get? symbol = some q) :
    q.IsFinite := ht _ (mem_of_lookup h)

section

variable [Platform]

/-- A product of powers of finite units is finite. -/
theorem IsFinite.isProduct (ht : t.IsFinite) (hv : v.IsFinite) (h : IsProduct t.get? v terms q) :
    q.IsFinite := by
  induction h with
  | nil => exact hv
  | cons hmul _ ih =>
    obtain ⟨unit, p, hunit, hp, hw⟩ := hmul
    exact ih (hv.mul ((ht.get? hunit).pow hp) hw)

theorem IsFinite.define (ht : t.IsFinite) (hd : d.scale.isFinite = true)
    (h : t.define d = .ok u) : u.IsFinite := by
  obtain ⟨-, q, hq, rfl⟩ := define_eq_ok_iff.mp h
  refine List.forall_mem_append.mpr ⟨ht, List.forall_mem_singleton.mpr ?_⟩
  exact ht.isProduct (Quantity.isFinite_ofNumber hd) (compose_eq_ok_iff.mp hq)

theorem IsFinite.defineAll (ht : t.IsFinite) (hds : ∀ d ∈ ds, d.scale.isFinite = true)
    (h : t.defineAll ds = .ok u) : u.IsFinite := by
  induction ds generalizing t with
  | nil =>
    cases h
    exact ht
  | cons d ds ih =>
    obtain ⟨hd, hds⟩ := List.forall_mem_cons.mp hds
    obtain ⟨t', ht', h⟩ := bind_eq_ok_iff.mp h
    exact ih (ht.define hd ht') hds h

theorem isFinite_of_ofDefinitions (h : ofDefinitions ds = .ok t)
    (hds : ∀ d ∈ ds, d.scale.isFinite = true) : t.IsFinite :=
  isFinite_base.defineAll hds h

theorem isFinite_standard : standard.IsFinite :=
  isFinite_of_ofDefinitions ofDefinitions_standard (by decide +kernel)

end

end UnitTable

/-! ## Expressions -/

namespace Expr

/-- Every decimal in the expression is finite. -/
def IsFinite : Expr → Prop
  | integer _ | unit _ | unitPower .. | foreign _ => True
  | decimal value => value.isFinite = true
  | suffixed value suffix => value.IsFinite ∧ suffix.IsFinite
  | binary left _ right => left.IsFinite ∧ right.IsFinite

theorem isFinite_of_lookup {symbol : String} (ht : t.IsFinite) (h : t.lookup symbol = .ok q) :
    q.IsFinite := by
  rw [UnitTable.lookup] at h
  cases hget : t.get? symbol with
  | none =>
    rw [hget] at h
    cases h
  | some q' =>
    rw [hget] at h
    cases h
    exact ht.get? hget

theorem isFinite_of_run [Platform] {op : Operation} {p r : Quantity} (hp : p.IsFinite)
    (hq : q.IsFinite) (h : op.run p q = .ok r) : r.IsFinite := by
  cases op with
  | add => exact hp.add hq h
  | sub => exact hp.sub hq h
  | mul => exact hp.mul hq h
  | div => exact hp.div hq h

/-- The value of an expression is finite if its decimals and the units of the table are. -/
theorem isFinite_of_evaluate [Platform] (ht : t.IsFinite) (he : e.IsFinite)
    (h : e.evaluate t = .ok q) : q.IsFinite := by
  induction e generalizing q with
  | integer value =>
    rw [evaluate_integer] at h
    split at h
    · next x hx =>
      cases h
      exact Quantity.isFinite_ofNumber (Binary64.isFinite_of_ofInt? hx)
    · cases h
  | decimal value =>
    cases h
    exact Quantity.isFinite_ofNumber he
  | unit symbol => exact isFinite_of_lookup ht h
  | unitPower symbol power =>
    rw [evaluate_unitPower] at h
    obtain ⟨p, hp, h⟩ := bind_eq_ok_iff.mp h
    exact (isFinite_of_lookup ht hp).pow h
  | suffixed value suffix ihv ihs =>
    rw [evaluate_suffixed] at h
    obtain ⟨p, hp, h⟩ := bind_eq_ok_iff.mp h
    obtain ⟨p', hp', h⟩ := bind_eq_ok_iff.mp h
    exact (ihv he.1 hp).mul (ihs he.2 hp') h
  | binary left operator right ihl ihr =>
    rw [evaluate_binary] at h
    split at h
    · cases h
    · obtain ⟨p, hp, h⟩ := bind_eq_ok_iff.mp h
      obtain ⟨p', hp', h⟩ := bind_eq_ok_iff.mp h
      exact isFinite_of_run (ihl he.1 hp) (ihr he.2 hp') h
  | foreign value => cases h

/-! ## Texts -/

/-- A tree derived from tokens with finite decimals has finite decimals. -/
theorem isFinite_of_derivesUnit (h : DerivesUnit ts e) : e.IsFinite := by
  cases h with
  | plain => exact trivial
  | power => exact trivial

theorem isFinite_of_derives (h : Derives category ts e)
    (hts : ∀ x spelling, .decimal x spelling ∈ ts → x.isFinite = true) : e.IsFinite := by
  induction h with
  | integer => exact trivial
  | decimal value spelling => exact hts value spelling (by simp)
  | unit hu => exact isFinite_of_derivesUnit hu
  | parentheses _ ih => exact ih fun x spelling hx ↦ hts x spelling (by simp [hx])
  | ofPrimary _ ih => exact ih hts
  | ofOperand _ ih => exact ih hts
  | ofProduct _ ih => exact ih hts
  | suffixed _ hu ih =>
    exact ⟨ih fun x spelling hx ↦ hts x spelling (by simp [hx]), isFinite_of_derivesUnit hu⟩
  | product operator _ _ ihl ihr =>
    exact ⟨ihl fun x spelling hx ↦ hts x spelling (by simp [hx]),
      ihr fun x spelling hx ↦ hts x spelling (by simp [hx])⟩
  | sum operator _ _ ihl ihr =>
    exact ⟨ihl fun x spelling hx ↦ hts x spelling (by simp [hx]),
      ihr fun x spelling hx ↦ hts x spelling (by simp [hx])⟩

/-- An expression that is read from a text has finite decimals. -/
theorem isFinite_of_read {text : String} (h : read text = .ok e) : e.IsFinite := by
  obtain ⟨ts, hs, hd⟩ := read_eq_ok_iff.mp h
  refine isFinite_of_derives hd fun x spelling hx ↦ ?_
  cases hs.canonical _ hx with
  | decimal _ hfraction hlt hlen => exact Literal.isFinite_decimal hlt hfraction hlen

end Expr

theorem UnitTable.isFinite_of_calculate [Platform] {text : String} (ht : t.IsFinite)
    (h : t.calculate text = .ok q) : q.IsFinite := by
  obtain ⟨e, he, h⟩ := bind_eq_ok_iff.mp h
  exact Expr.isFinite_of_evaluate ht (Expr.isFinite_of_read he) h

/-- Results are finite. If the scales of the definitions are finite, so is every unit of the table
that they make, and over this table the value of every expression whose decimals are finite. The
value of a text is finite, whatever the text. -/
theorem results_isFinite [Platform] :
    (∀ ds t, UnitTable.ofDefinitions ds = .ok t → (∀ d ∈ ds, d.scale.isFinite = true) →
      (∀ unit ∈ t.units, unit.2.magnitude.isFinite = true) ∧
      (∀ e : Expr, e.IsFinite → ∀ q, e.evaluate t = .ok q → q.magnitude.isFinite = true) ∧
      ∀ text q, t.calculate text = .ok q → q.magnitude.isFinite = true) ∧
    ∀ text q, calculate text = .ok q → q.magnitude.isFinite = true := by
  refine ⟨fun ds t h hds ↦ ?_, fun text q ↦ ?_⟩
  · have ht := UnitTable.isFinite_of_ofDefinitions h hds
    exact ⟨ht, fun e he q ↦ Expr.isFinite_of_evaluate ht he,
      fun text q ↦ UnitTable.isFinite_of_calculate ht⟩
  · exact UnitTable.isFinite_of_calculate UnitTable.isFinite_standard

open Rounded in
/-- A table with the kilometer, an expression of it whose value is near the end of the range, and a
text. -/
theorem results_isFinite_kilometer :
    let kilometer : UnitDefinition := ⟨"km", "kilometer", .ofRatio 1000 1, [("m", 1)]⟩
    let km : Quantity := ⟨.ofRatio 1000 1, .ofBaseUnit .meter⟩
    let t : UnitTable := UnitTable.base.insert "km" "kilometer" km
    let e : Expr := .binary (.suffixed (.integer (2 ^ 1010)) (.unitPower "km" 1)) "/"
      (.decimal (.ofRatio 1 2))
    (UnitTable.ofDefinitions [kilometer] = .ok t ∧ kilometer.scale.isFinite = true ∧
      km.magnitude.isFinite = true) ∧
    (e.IsFinite ∧ ∃ q, e.evaluate t = .ok q ∧ q.magnitude.isFinite = true) ∧
    ∃ q, calculate "1.5 km / 3" = .ok q ∧ q.magnitude.isFinite = true := by
  intro kilometer km t e
  have ht : UnitTable.ofDefinitions [kilometer] = .ok t := by decide +kernel
  have hscale : kilometer.scale.isFinite = true := by decide +kernel
  have he : e.IsFinite := ⟨⟨trivial, trivial⟩, by
    change (Binary64.ofRatio 1 2).isFinite = true
    decide +kernel⟩
  obtain ⟨q, hq⟩ : ∃ q, e.evaluate t = .ok q :=
    ⟨⟨.ofRatio (2 ^ 1011 * 1000) 1, .ofBaseUnit .meter⟩, by decide +kernel⟩
  have hcalculate : calculate "1.5 km / 3" = .ok ⟨.ofRatio 500 1, .ofBaseUnit .meter⟩ := by
    decide +kernel
  obtain ⟨htable, htext⟩ := results_isFinite
  obtain ⟨hunits, hvalues, -⟩ := htable [kilometer] t ht (List.forall_mem_singleton.mpr hscale)
  exact ⟨⟨ht, hscale, hunits ("km", km) (by simp [t, UnitTable.insert])⟩,
    ⟨he, q, hq, hvalues e he q hq⟩, _, hcalculate, htext _ _ hcalculate⟩

end UnitCalc
