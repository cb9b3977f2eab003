import UnitCalc.Proofs.Binary64.Finite
import UnitCalc.Proofs.Binary64.Monotone
import UnitCalc.Proofs.Quantity.Finite
import UnitCalc.Proofs.UnitTable.Definitions

/-!
# Estimates of units

Powers are not the same on all platforms, and neither are the units that are defined with them. To
say something about the standard units without choosing a platform, they are estimated: an estimate
bounds a magnitude by two ranks and tells its dimension.

Estimates are made along definitions, as the units are. A product of estimates rounds the products
of the bounds. For powers there is only what the laws of a platform say, so an estimate exists if
the base is one, if the exponent is one, or if no power of such a base is above one. It is partial
for this reason; but where it can be made, the definitions make a table, whatever the platform, and
each unit is within its estimate (`Estimates.Hold.exists_defineAll`).
-/

namespace UnitCalc

open Binary64

/-- Bounds for the rank of a magnitude, and a dimension. -/
structure Estimate where
  low : Nat
  high : Nat
  dimension : Dimension

variable {p q : Quantity} {e e' e'' : Estimate} {n : Int} {a b : Fin rankBound} {t : Bool}

namespace Estimate

/-- The quantity has the dimension, and a positive magnitude within the bounds. -/
def Holds (e : Estimate) (q : Quantity) : Prop :=
  q.dimension = e.dimension ∧
    ∃ r : Fin rankBound, q.magnitude = finite false r ∧ e.low ≤ r ∧ r ≤ e.high

/-- The estimate that allows only one quantity. -/
def exactly? : Quantity → Option Estimate
  | ⟨finite false r, dimension⟩ => some ⟨r, r, dimension⟩
  | _ => none

theorem holds_of_exactly? (h : exactly? q = some e) : e.Holds q := by
  unfold exactly? at h
  split at h
  · next r dimension =>
    cases h
    exact ⟨rfl, r, rfl, Nat.le_refl _, Nat.le_refl _⟩
  · cases h

/-! ## Products -/

/-- The rank of the product of two magnitudes. -/
def productRank (a b : Nat) : Nat := nearestRank (quanta a * quanta b) unit

theorem productRank_mono {a a' b b' : Nat} (ha : a ≤ a') (hb : b ≤ b') :
    productRank a b ≤ productRank a' b' :=
  nearestRank_mono unit_pos (Nat.mul_le_mul (quanta_mono ha) (quanta_mono hb))

def mul? (e e' : Estimate) : Option Estimate :=
  if productRank e.high e'.high < rankBound then
    some ⟨productRank e.low e'.low, productRank e.high e'.high, e.dimension * e'.dimension⟩
  else none

theorem exists_mul_of_holds (hp : e.Holds p) (hq : e'.Holds q) (h : e.mul? e' = some e'') :
    ∃ r, p.mul q = .ok r ∧ e''.Holds r := by
  obtain ⟨hpd, a, hpm, hlow, hhigh⟩ := hp
  obtain ⟨hqd, b, hqm, hlow', hhigh'⟩ := hq
  by_cases hbound : productRank e.high e'.high < rankBound
  case neg =>
    rw [mul?, if_neg hbound] at h
    cases h
  rw [mul?, if_pos hbound] at h
  obtain rfl := Option.some.inj h
  have hle := productRank_mono hhigh hhigh'
  have hrank : productRank a b < rankBound := hle.trans_lt hbound
  have hmul : p.magnitude * q.magnitude = finite false ⟨_, hrank⟩ := by
    rw [hpm, hqm, mul_finite, Bool.xor_self]
    exact ofRank_of_lt false hrank
  refine ⟨⟨finite false ⟨_, hrank⟩, p.dimension * q.dimension⟩, ?_, ?_, ?_⟩
  · rw [Quantity.mul, hmul]
    rfl
  · rw [hpd, hqd]
  · exact ⟨_, rfl, productRank_mono hlow hlow', hle⟩

/-! ## Powers -/

/-- Bounds of the power with a finite exponent of rank `b`, negative if `t` holds. -/
def powBounds? (e : Estimate) (t : Bool) (b : Nat) : Option (Nat × Nat) :=
  if b = 0 ∨ (e.low = oneRank ∧ e.high = oneRank) then some (oneRank, oneRank)
  else if t = false ∧ b = oneRank then some (e.low, e.high)
  else if (t = false ∧ e.high ≤ oneRank) ∨ (t = true ∧ oneRank ≤ e.low) then some (0, oneRank)
  else none

def pow? (e : Estimate) (n : Int) : Option Estimate :=
  match ofInt? n with
  | some (finite t b) => (e.powBounds? t b).map fun (low, high) ↦ ⟨low, high, e.dimension ^ n⟩
  | _ => none

section

variable [Platform]

/-- A power of the platform that is a finite magnitude is the power. -/
theorem finitePower_of_pow {r : Fin rankBound} (ha : a.val ≠ oneRank)
    (h : Platform.pow (finite false a) (finite t b) = finite false r) :
    finitePower false a (finite t b) = .ok (finite false r) := by
  rw [finitePower, if_neg ha, h]
  rfl

/-- An exponent of one changes nothing. -/
theorem realPower_one_right (a : Fin rankBound) :
    (finite false a).realPower (one false) = .ok (finite false a) := by
  have hb : oneRank ≠ 0 := by decide
  by_cases h0 : a.val = 0
  · rw [one, realPower_zero_left h0 hb, if_neg Bool.false_ne_true]
    exact congrArg Except.ok (zero_eq_finite false h0)
  rw [one, realPower_finite h0 hb, Bool.false_and]
  by_cases h1 : a.val = oneRank
  · rw [finitePower, if_pos h1, one_eq_finite false h1]
  · exact finitePower_of_pow h1 (Platform.pow_one a)

/-- No power is above one if the base is up to one and the exponent positive, or the base from one
on and the exponent negative. -/
theorem exists_realPower_le_one (hb : b.val ≠ 0)
    (ha : (t = false ∧ a.val ≤ oneRank) ∨ (t = true ∧ oneRank ≤ a.val)) :
    ∃ r : Fin rankBound, (finite false a).realPower (finite t b) = .ok (finite false r) ∧
      r.val ≤ oneRank := by
  by_cases h0 : a.val = 0
  · have ht : t = false := by
      refine (ha.resolve_right ?_).1
      rintro ⟨-, hle⟩
      rw [h0] at hle
      exact absurd hle (by decide)
    rw [realPower_zero_left h0 hb, ht, if_neg Bool.false_ne_true]
    exact ⟨⟨0, by decide⟩, rfl, Nat.zero_le _⟩
  rw [realPower_finite h0 hb, Bool.false_and]
  by_cases h1 : a.val = oneRank
  · rw [finitePower, if_pos h1, one_eq_finite false h1]
    exact ⟨a, rfl, h1.le⟩
  obtain ⟨r, hr, hpow⟩ : ∃ r : Fin rankBound, r.val ≤ oneRank ∧
      Platform.pow (finite false a) (finite t b) = finite false r := by
    rcases ha with ⟨rfl, ha⟩ | ⟨rfl, ha⟩
    · exact Platform.pow_le_one a b ha
    · exact Platform.neg_pow_le_one a b ha
  exact ⟨r, finitePower_of_pow h1 hpow, hr⟩

theorem exists_realPower_of_powBounds? {low high : Nat} (hlow : e.low ≤ a) (hhigh : a ≤ e.high)
    (h : e.powBounds? t b = some (low, high)) : ∃ r : Fin rankBound,
      (finite false a).realPower (finite t b) = .ok (finite false r) ∧ low ≤ r ∧ r ≤ high := by
  unfold powBounds? at h
  split at h
  · next hone =>
    cases h
    refine ⟨⟨oneRank, by decide⟩, ?_, Nat.le_refl _, Nat.le_refl _⟩
    rcases hone with hb | ⟨hl, hh⟩
    · exact realPower_zero_right _ hb
    · rw [hl] at hlow
      rw [hh] at hhigh
      rw [← one_eq_finite false (Nat.le_antisymm hhigh hlow)]
      exact realPower_one_left t b
  next hone =>
  obtain ⟨hb, -⟩ := not_or.mp hone
  split at h
  · next hexponent =>
    cases h
    obtain ⟨rfl, hb⟩ := hexponent
    have hpow := realPower_one_right a
    rw [one_eq_finite false hb] at hpow
    exact ⟨a, hpow, hlow, hhigh⟩
  split at h
  · next hbase =>
    cases h
    have ha : (t = false ∧ a.val ≤ oneRank) ∨ (t = true ∧ oneRank ≤ a.val) :=
      hbase.imp (And.imp_right hhigh.trans) (And.imp_right (·.trans hlow))
    obtain ⟨r, hr, hle⟩ := exists_realPower_le_one hb ha
    exact ⟨r, hr, Nat.zero_le _, hle⟩
  · cases h

theorem exists_pow_of_holds (hq : e.Holds q) (h : e.pow? n = some e') :
    ∃ r, q.pow n = .ok r ∧ e'.Holds r := by
  obtain ⟨hd, a, hm, hlow, hhigh⟩ := hq
  unfold pow? at h
  split at h
  · next t b hn =>
    obtain ⟨⟨low, high⟩, hbounds, rfl⟩ := Option.map_eq_some_iff.mp h
    obtain ⟨r, hr, hbound⟩ := exists_realPower_of_powBounds? hlow hhigh hbounds
    refine ⟨⟨finite false r, q.dimension ^ n⟩, ?_, congrArg (· ^ n) hd, r, rfl, hbound⟩
    refine Quantity.pow_eq_ok_iff.mpr ⟨_, ?_, rfl⟩
    unfold power
    rw [hn, hm]
    exact hr
  · cases h

end

end Estimate

/-! ## Definitions -/

/-- Estimates of the units of a table, under their symbols and in order. -/
abbrev Estimates : Type := List (String × Estimate)

namespace Estimates

variable {es es' : Estimates} {u u' : UnitTable} {d : UnitDefinition} {ds : List UnitDefinition}
  {symbol : String} {terms : List (String × Int)}

/-- The estimates are those of the units of the table. -/
def Hold (es : Estimates) (u : UnitTable) : Prop :=
  List.Forall₂ (fun entry unit ↦ entry.1 = unit.1 ∧ entry.2.Holds unit.2) es u.units

/-- The estimate of a value multiplied by a term. -/
def multiply? (es : Estimates) (e : Estimate) (term : String × Int) : Option Estimate := do
  e.mul? (← (← es.lookup term.1).pow? term.2)

def compose? (es : Estimates) (d : UnitDefinition) : Option Estimate := do
  d.terms.foldlM es.multiply? (← Estimate.exactly? (.ofNumber d.scale))

/-- The estimates with that of one more definition, of a symbol that is new. -/
def define? (es : Estimates) (d : UnitDefinition) : Option Estimates :=
  if d.symbol ∈ es.map Prod.fst then none else do return es ++ [(d.symbol, ← es.compose? d)]

def defineAll? (es : Estimates) (ds : List UnitDefinition) : Option Estimates :=
  ds.foldlM define? es

/-- The estimates of the base units, whose magnitude is one. -/
def base : Estimates :=
  UnitTable.baseRows.map fun (symbol, _, b) ↦ (symbol, ⟨oneRank, oneRank, .ofBaseUnit b⟩)

theorem hold_base : base.Hold UnitTable.base := by
  have hone (b : BaseUnit) :
      Estimate.Holds ⟨oneRank, oneRank, .ofBaseUnit b⟩ (.ofBaseUnit b) :=
    ⟨rfl, _, rfl, Nat.le_refl _, Nat.le_refl _⟩
  rw [Hold, UnitTable.units_base, base, List.forall₂_map_left_iff, List.forall₂_map_right_iff,
    List.forall₂_same]
  exact fun row _ ↦ ⟨rfl, hone row.2.2⟩

theorem Hold.symbols_eq (h : es.Hold u) : es.map Prod.fst = u.symbols := by
  rw [Hold] at h
  rw [UnitTable.symbols]
  generalize u.units = units at h
  induction h with
  | nil => rfl
  | cons hunit _ ih => rw [List.map_cons, List.map_cons, hunit.1, ih]

/-- The same symbols have estimates and units. -/
theorem Hold.lookup (h : es.Hold u) (symbol : String) :
    Option.Rel Estimate.Holds (es.lookup symbol) (u.get? symbol) := by
  rw [Hold] at h
  rw [UnitTable.get?]
  generalize u.units = units at h
  induction h with
  | nil => exact .none
  | @cons entry unit es units hunit _ ih =>
    obtain ⟨hsymbol, hholds⟩ := hunit
    rw [List.lookup_cons, List.lookup_cons, ← hsymbol]
    split
    · exact .some hholds
    · exact ih

theorem Hold.exists_get? (h : es.Hold u) (he : es.lookup symbol = some e) :
    ∃ unit, u.get? symbol = some unit ∧ e.Holds unit := by
  have hrel := h.lookup symbol
  rw [he] at hrel
  generalize u.get? symbol = unit at hrel
  cases hrel with
  | some hholds => exact ⟨_, rfl, hholds⟩

theorem Hold.exists_lookup (h : es.Hold u) (hq : u.get? symbol = some q) :
    ∃ e, es.lookup symbol = some e ∧ e.Holds q := by
  have hrel := h.lookup symbol
  rw [hq] at hrel
  generalize es.lookup symbol = e at hrel
  cases hrel with
  | some hholds => exact ⟨_, rfl, hholds⟩

section

variable [Platform]

theorem Hold.exists_isProduct (h : es.Hold u) (hp : e.Holds p)
    (he : terms.foldlM es.multiply? e = some e') :
    ∃ q, IsProduct u.get? p terms q ∧ e'.Holds q := by
  induction terms generalizing p e with
  | nil =>
    cases he
    exact ⟨p, .nil, hp⟩
  | cons term terms ih =>
    rw [List.foldlM_cons] at he
    obtain ⟨e₁, hmultiply, he⟩ := Option.bind_eq_some_iff.mp he
    obtain ⟨e₂, hlookup, hmultiply⟩ := Option.bind_eq_some_iff.mp hmultiply
    obtain ⟨e₃, hpow, hmul⟩ := Option.bind_eq_some_iff.mp hmultiply
    obtain ⟨unit, hunit, hholds⟩ := h.exists_get? hlookup
    obtain ⟨r, hr, hholds⟩ := Estimate.exists_pow_of_holds hholds hpow
    obtain ⟨w, hw, hholds⟩ := Estimate.exists_mul_of_holds hp hholds hmul
    obtain ⟨q, hq, hholds⟩ := ih hholds he
    exact ⟨q, .cons ⟨unit, r, hunit, hr, hw⟩ hq, hholds⟩

theorem Hold.exists_define (h : es.Hold u) (hd : es.define? d = some es') :
    ∃ u', u.define d = .ok u' ∧ es'.Hold u' := by
  unfold define? at hd
  split at hd
  · cases hd
  next hfresh =>
  obtain ⟨e, he, hd⟩ := Option.bind_eq_some_iff.mp hd
  cases hd
  obtain ⟨e₀, hscale, he⟩ := Option.bind_eq_some_iff.mp he
  obtain ⟨q, hq, hholds⟩ := h.exists_isProduct (Estimate.holds_of_exactly? hscale) he
  rw [h.symbols_eq] at hfresh
  have hdefine := UnitTable.define_eq_ok_iff.mpr
    ⟨hfresh, q, UnitTable.compose_eq_ok_iff.mpr hq, rfl⟩
  refine ⟨_, hdefine, ?_⟩
  exact List.rel_append h (.cons ⟨rfl, hholds⟩ .nil)

/-- Definitions that can be estimated make a table, on every platform, and its units are within
their estimates. -/
theorem Hold.exists_defineAll (h : es.Hold u) (hds : es.defineAll? ds = some es') :
    ∃ u', u.defineAll ds = .ok u' ∧ es'.Hold u' := by
  induction ds generalizing es u with
  | nil =>
    cases hds
    exact ⟨u, rfl, h⟩
  | cons d ds ih =>
    obtain ⟨es₁, hd, hds⟩ := Option.bind_eq_some_iff.mp hds
    obtain ⟨u₁, hu₁, h₁⟩ := h.exists_define hd
    obtain ⟨u', hu', h'⟩ := ih h₁ hds
    exact ⟨u', bind_eq_ok_iff.mpr ⟨u₁, hu₁, hu'⟩, h'⟩

end

/-! ## The standard units -/

/-- The estimates of the standard units. -/
def standard? : Option Estimates := base.defineAll? UnitTable.standardDefinitions

end Estimates

namespace UnitTable

variable [Platform] {symbol : String}

theorem exists_ofDefinitions_standard :
    ∃ es t, Estimates.standard? = some es ∧ ofDefinitions standardDefinitions = .ok t ∧
      es.Hold t := by
  obtain ⟨es, hes⟩ := Option.isSome_iff_exists.mp
    (show Estimates.standard?.isSome = true by decide +kernel)
  obtain ⟨t, ht, hold⟩ := Estimates.hold_base.exists_defineAll hes
  exact ⟨es, t, hes, ht, hold⟩

/-- The standard definitions make the standard table, which is never replaced by that of the base
units. -/
theorem ofDefinitions_standard : ofDefinitions standardDefinitions = .ok standard := by
  obtain ⟨-, t, -, ht, -⟩ := exists_ofDefinitions_standard
  unfold standard
  rw [ht]

theorem solves_standard : standard.Solves standardDefinitions :=
  solves_of_ofDefinitions ofDefinitions_standard

/-- What is so for all estimated dimensions is so for the dimension of a standard unit. -/
theorem dimension_of_get?_standard {P : Dimension → Bool}
    (h : Estimates.standard?.all (·.all fun entry ↦ P entry.2.dimension) = true)
    (hq : standard.get? symbol = some q) : P q.dimension = true := by
  obtain ⟨es, t, hes, ht, hold⟩ := exists_ofDefinitions_standard
  rw [Except.ok.inj (ofDefinitions_standard.symm.trans ht)] at hq
  obtain ⟨e, he, hdimension, -⟩ := hold.exists_lookup hq
  rw [hes] at h
  rw [hdimension]
  exact List.all_eq_true.mp h _ (mem_of_lookup he)

end UnitTable

end UnitCalc
