import UnitCalc.Calculator
import UnitCalc.Proofs.Binary64.Rounded
import UnitCalc.Proofs.UnitTable.Definitions

/-!
# The order of definitions

Definitions that are made in another order give the same units, as long as every reference is still
to something defined before. Whether the arithmetic fails does not depend on the order either.

A permutation is a chain of swaps, but the lists on the way need not respect the references, so the
argument is not by swaps. It follows the second run step by step beside the finished table of the
first one (`exists_define_agreeing`): the two agree on all symbols that the second run knows so far.
The finished table satisfies the equation of the next definition, and the references of that
definition are among those symbols, so the second run computes the same product.
-/

namespace UnitCalc

variable {t u : UnitTable} {d : UnitDefinition} {before after ds es : List UnitDefinition}
  {s : String}

/-! ## What depends on lookup only -/

/-- The value of an expression depends only on the units that the table has. -/
theorem Expr.evaluate_congr [Platform] (h : u.get? = t.get?) (e : Expr) :
    e.evaluate u = e.evaluate t := by
  have hlookup (symbol : String) : u.lookup symbol = t.lookup symbol := by
    rw [UnitTable.lookup, UnitTable.lookup, h]
  induction e with
  | integer value => rfl
  | decimal value => rfl
  | unit symbol => exact hlookup symbol
  | unitPower symbol power => rw [evaluate_unitPower, evaluate_unitPower, hlookup]
  | suffixed value suffix ihv ihs => rw [evaluate_suffixed, evaluate_suffixed, ihv, ihs]
  | binary left operator right ihl ihr => rw [evaluate_binary, evaluate_binary, ihl, ihr]
  | foreign value => rfl

namespace UnitTable

section

variable [Platform]

theorem calculate_congr (h : u.get? = t.get?) (text : String) :
    u.calculate text = t.calculate text := by
  rw [calculate, calculate]
  simp only [Expr.evaluate_congr h]

/-! ## Agreement -/

/-- The tables have the same units and descriptions for the symbols of the base units and of the
definitions. -/
def AgreeOn (ds : List UnitDefinition) (t u : UnitTable) : Prop :=
  ∀ s ∈ knownSymbols ds, u.get? s = t.get? s ∧ u.description? s = t.description? s

theorem agreeOn_nil (ht : t.Solves ds) (hu : u.Solves es) : AgreeOn [] t u := by
  intro s hs
  rw [knownSymbols, List.map_nil, List.append_nil] at hs
  obtain ⟨b, -, rfl⟩ := List.mem_map.mp hs
  rw [ht.base, hu.base, ht.baseDescription, hu.baseDescription]
  exact ⟨rfl, rfl⟩

/-- A definition that a table solves can be made over another one that agrees with it so far, and
they still agree. -/
theorem exists_define_agreeing (ht : t.Solves ds) (hd : d ∈ ds) (hu : u.Solves before)
    (hfresh : d.symbol ∉ knownSymbols before)
    (hback : ∀ term ∈ d.terms, term.1 ∈ knownSymbols before) (hagree : AgreeOn before t u) :
    ∃ u', u.define d = .ok u' ∧ AgreeOn (before ++ [d]) t u' := by
  obtain ⟨q, hq, hvalue⟩ := ht.equation d hd
  have hproduct : IsProduct u.get? (.ofNumber d.scale) d.terms q := by
    refine hq.mono fun term hterm unit hunit ↦ ?_
    rw [(hagree _ (hback term hterm)).1, hunit]
  have hdefine : u.define d = .ok (u.insert d.symbol d.description q) :=
    define_eq_ok_iff.mpr ⟨hu.symbols ▸ hfresh, q, compose_eq_ok_iff.mpr hproduct, rfl⟩
  refine ⟨_, hdefine, fun s hs ↦ ?_⟩
  obtain ⟨q', hq', hget⟩ := get?_of_define hdefine
  cases (compose_eq_ok_iff.mpr hproduct).symm.trans (compose_eq_ok_iff.mpr hq')
  rw [hget, description?_of_define hdefine]
  by_cases hsd : s = d.symbol
  · rw [if_pos hsd, if_pos hsd, hsd, hvalue, ht.description d hd]
    exact ⟨rfl, rfl⟩
  · rw [if_neg hsd, if_neg hsd]
    rw [knownSymbols_concat] at hs
    refine hagree s ((List.mem_append.mp hs).resolve_right ?_)
    simpa using hsd

/-- Definitions that a table solves can be made in any order that respects their references. -/
theorem exists_defineAll_agreeing (ht : t.Solves ds) (hds : ∀ d ∈ after, d ∈ ds)
    (hnodup : (knownSymbols (before ++ after)).Nodup) (hback : RefersBack (before ++ after))
    (hu : u.Solves before) (hagree : AgreeOn before t u) :
    ∃ u', u.defineAll after = .ok u' ∧ AgreeOn (before ++ after) t u' := by
  induction after generalizing u before with
  | nil => exact ⟨u, rfl, by rwa [List.append_nil]⟩
  | cons d after ih =>
    obtain ⟨hd, hafter⟩ := List.forall_mem_cons.mp hds
    obtain ⟨u₁, hu₁, hagree₁⟩ := exists_define_agreeing ht hd hu (symbol_notMem_of_nodup hnodup)
      (hback before d after rfl) hagree
    have hsplit : before ++ d :: after = (before ++ [d]) ++ after := by simp
    rw [hsplit] at hnodup hback ⊢
    obtain ⟨u', hu', hagree'⟩ := ih hafter hnodup hback (hu.define hu₁) hagree₁
    exact ⟨u', bind_eq_ok_iff.mpr ⟨u₁, hu₁, hu'⟩, hagree'⟩

/-- Tables that agree on all that both know have the same units and descriptions. -/
theorem AgreeOn.lookup_eq (h : AgreeOn es t u) (hu : u.Solves es)
    (hperm : u.symbols.Perm t.symbols) :
    u.get? s = t.get? s ∧ u.description? s = t.description? s := by
  by_cases hs : s ∈ u.symbols
  · exact h s (hu.symbols ▸ hs)
  · have hs' : s ∉ t.symbols := mt hperm.mem_iff.mpr hs
    rw [get?_eq_none_iff.mpr hs, get?_eq_none_iff.mpr hs', description?_eq_none_iff.mpr hs,
      description?_eq_none_iff.mpr hs']
    exact ⟨rfl, rfl⟩

/-! ## Reordering -/

/-- Definitions that make a table make one in any other order in which every reference is to a base
unit or an earlier definition. The two tables know the same symbols and have the same units, so
every expression and every text has the same value, or the same fault, over both. -/
theorem exists_ofDefinitions_of_perm (hperm : ds.Perm es) (h : ofDefinitions ds = .ok t)
    (hback : RefersBack es) :
    ∃ u, ofDefinitions es = .ok u ∧ u.symbols.Perm t.symbols ∧
      (∀ s, u.get s = t.get s ∧ u.describe s = t.describe s) ∧
      (∀ e : Expr, e.evaluate u = e.evaluate t) ∧
      ∀ text, u.calculate text = t.calculate text := by
  have ht := solves_of_ofDefinitions h
  have hknown : (knownSymbols es).Perm (knownSymbols ds) := (hperm.symm.map _).append_left _
  have hds : ∀ d ∈ es, d ∈ ds := fun d ↦ hperm.mem_iff.mpr
  have hnodup : (knownSymbols ([] ++ es)).Nodup := hknown.nodup_iff.mpr ht.nodup
  obtain ⟨u, hu, hagree⟩ := exists_defineAll_agreeing ht hds hnodup hback solves_base
    (agreeOn_nil ht solves_base)
  have hsolves : u.Solves es := solves_of_ofDefinitions hu
  have hsymbols : u.symbols.Perm t.symbols := by rwa [hsolves.symbols, ht.symbols]
  have hsame (s : String) := hagree.lookup_eq (s := s) hsolves hsymbols
  have hget : u.get? = t.get? := funext fun s ↦ (hsame s).1
  refine ⟨u, hu, hsymbols, ?_, Expr.evaluate_congr hget, calculate_congr hget⟩
  intro s
  rw [get, get, hget, describe_eq, describe_eq, (hsame s).2]
  exact ⟨rfl, rfl⟩

end

open Rounded in
/-- The newton needs nothing but base units, the pascal needs the newton, and the kilometer may come
first or last. -/
theorem exists_ofDefinitions_of_perm_kilometer :
    let newton : UnitDefinition := ⟨"N", "newton", .one false, [("kg", 1), ("m", 1), ("s", -2)]⟩
    let pascal : UnitDefinition := ⟨"Pa", "pascal", .one false, [("N", 1), ("m", -2)]⟩
    let kilometer : UnitDefinition := ⟨"km", "kilometer", .ofRatio 1000 1, [("m", 1)]⟩
    let n : Quantity := ⟨.one false, ⟨1, -2, 0, 0, 0, 0, 1⟩⟩
    let p : Quantity := ⟨.one false, ⟨-1, -2, 0, 0, 0, 0, 1⟩⟩
    let km : Quantity := ⟨.ofRatio 1000 1, .ofBaseUnit .meter⟩
    let t : UnitTable :=
      ((base.insert "N" "newton" n).insert "Pa" "pascal" p).insert "km" "kilometer" km
    ofDefinitions [newton, pascal, kilometer] = .ok t ∧ RefersBack [kilometer, newton, pascal] ∧
      ∃ u, ofDefinitions [kilometer, newton, pascal] = .ok u ∧ u ≠ t ∧
        u.get "Pa" = .ok p ∧ u.calculate "2 Pa / km" = t.calculate "2 Pa / km" := by
  intro newton pascal kilometer n p km t
  have ht : ofDefinitions [newton, pascal, kilometer] = .ok t := by decide +kernel
  have hp : t.get "Pa" = .ok p := by decide +kernel
  have hperm : [newton, pascal, kilometer].Perm [kilometer, newton, pascal] := by decide +kernel
  have hback : RefersBack [kilometer, newton, pascal] := by
    intro before d after h
    simp only [List.cons_eq_append_iff, List.nil_eq_append_iff, List.cons.injEq, reduceCtorEq,
      and_false, or_false, exists_false] at h
    rcases h with ⟨rfl, rfl, -⟩ | ⟨_, rfl, ⟨rfl, rfl, -⟩ | ⟨_, rfl, rfl, rfl, -⟩⟩
    · decide
    · decide
    · decide
  obtain ⟨u, hu, -, hget, -, hcalculate⟩ := exists_ofDefinitions_of_perm hperm ht hback
  have hne : knownSymbols [kilometer, newton, pascal] ≠
      knownSymbols [newton, pascal, kilometer] := by decide
  refine ⟨ht, hback, u, hu, ?_, (hget "Pa").1.trans hp, hcalculate _⟩
  rintro rfl
  exact hne ((solves_of_ofDefinitions hu).symbols.symm.trans (solves_of_ofDefinitions ht).symbols)

end UnitTable

end UnitCalc
