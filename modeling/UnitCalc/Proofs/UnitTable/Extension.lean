import UnitCalc.Calculator
import UnitCalc.Proofs.Binary64.Rounded
import UnitCalc.Proofs.Expr.Origin
import UnitCalc.Proofs.UnitTable.Definitions

/-!
# Further definitions

Definitions that are added behind others are a conservative extension. The units that were there
stay as they are, and an expression has the same outcome over the smaller table as over the larger
one, unless it fails there at a unit that only the larger one has.

The first node that fails decides the outcome, so a node that the smaller table cannot evaluate may
hide a later failure, but never the other way round: where both tables have the unit, they take the
same step. `AgreesBut` is the relation that sequencing preserves, and the outcomes of all nodes are
related by it.
-/

namespace UnitCalc

variable {α β : Type} {m m' : Except Fault α} {k k' : α → Except Fault β} {lacks : String → Prop}
  {t u : UnitTable} {ds es : List UnitDefinition} {symbol : String} {e : Expr}

/-! ## Computations that may lack a unit -/

/-- The two computations end alike, unless the first one fails at a unit that is lacking. -/
def AgreesBut (lacks : String → Prop) (m m' : Except Fault α) : Prop :=
  m = m' ∨ ∃ symbol, lacks symbol ∧ m = .error (.unknownUnit symbol)

theorem AgreesBut.refl (m : Except Fault α) : AgreesBut lacks m m := .inl rfl

theorem AgreesBut.bind (h : AgreesBut lacks m m') (hk : ∀ a, AgreesBut lacks (k a) (k' a)) :
    AgreesBut lacks (m >>= k) (m' >>= k') := by
  rcases h with rfl | ⟨symbol, hsymbol, rfl⟩
  · match m with
    | .ok a => exact hk a
    | .error f => exact .refl _
  · exact .inr ⟨symbol, hsymbol, rfl⟩

namespace UnitTable

/-! ## Tables with further units -/

/-- What the one table has is the same in the other. -/
def IsExtendedBy (t u : UnitTable) : Prop :=
  ∀ symbol ∈ t.symbols,
    u.get? symbol = t.get? symbol ∧ u.description? symbol = t.description? symbol

/-- The symbol is known to the larger table alone. -/
def Lacks (t u : UnitTable) (symbol : String) : Prop := symbol ∈ u.symbols ∧ symbol ∉ t.symbols

/-- Later definitions change no entry. -/
theorem isExtendedBy_of_defineAll [Platform] (h : t.defineAll es = .ok u) : t.IsExtendedBy u := by
  induction es generalizing t with
  | nil =>
    cases h
    intro symbol _
    exact ⟨rfl, rfl⟩
  | cons d es ih =>
    obtain ⟨t', ht', h⟩ := bind_eq_ok_iff.mp h
    intro symbol hs
    have hs' : symbol ∈ t'.symbols := by
      rw [symbols_of_define ht']
      exact List.mem_append_left _ hs
    obtain ⟨hget, hdescription⟩ := ih h symbol hs'
    exact ⟨hget.trans (get?_of_define_of_mem ht' hs),
      hdescription.trans (description?_of_define_of_mem ht' hs)⟩

/-- What the larger table knows besides are the symbols of the later definitions. -/
theorem Solves.mem_of_lacks [Platform] (ht : t.Solves ds) (hu : u.Solves (ds ++ es))
    (h : t.Lacks u symbol) : symbol ∈ es.map (·.symbol) := by
  obtain ⟨hs, hnot⟩ := h
  rw [hu.symbols, knownSymbols, List.map_append, ← List.append_assoc] at hs
  rw [ht.symbols] at hnot
  exact (List.mem_append.mp hs).resolve_left hnot

/-- A unit is the same over both tables, or lacking in the smaller one. -/
theorem IsExtendedBy.agreesBut_lookup (h : t.IsExtendedBy u) (symbol : String) :
    AgreesBut (t.Lacks u) (t.lookup symbol) (u.lookup symbol) := by
  by_cases hs : symbol ∈ t.symbols
  · left
    rw [lookup, lookup, (h symbol hs).1]
  have hnone : t.get? symbol = none := by
    rw [← Option.not_isSome_iff_eq_none, get?_isSome_iff]
    exact hs
  have hfail : t.lookup symbol = .error (.unknownUnit symbol) :=
    lookup_eq_error_iff.mpr ⟨hnone, rfl⟩
  by_cases hu : symbol ∈ u.symbols
  · exact .inr ⟨symbol, ⟨hu, hs⟩, hfail⟩
  · left
    have hnone' : u.get? symbol = none := by
      rw [← Option.not_isSome_iff_eq_none, get?_isSome_iff]
      exact hu
    rw [hfail, lookup_eq_error_iff.mpr ⟨hnone', rfl⟩]

end UnitTable

/-! ## Expressions and texts -/

section

variable [Platform]

theorem Expr.agreesBut_evaluate (h : t.IsExtendedBy u) (e : Expr) :
    AgreesBut (t.Lacks u) (e.evaluate t) (e.evaluate u) := by
  induction e with
  | integer value => exact .refl _
  | decimal value => exact .refl _
  | unit symbol => exact h.agreesBut_lookup symbol
  | unitPower symbol power => exact (h.agreesBut_lookup symbol).bind fun q ↦ .refl _
  | suffixed value suffix ihv ihs => exact ihv.bind fun p ↦ ihs.bind fun q ↦ .refl _
  | binary left operator right ihl ihr =>
    rw [evaluate_binary, evaluate_binary]
    cases Operation.ofText? operator with
    | none => exact .refl _
    | some op => exact ihl.bind fun p ↦ ihr.bind fun q ↦ .refl _
  | foreign value => exact .refl _

theorem UnitTable.agreesBut_calculate (h : t.IsExtendedBy u) (text : String) :
    AgreesBut (t.Lacks u) (t.calculate text) (u.calculate text) :=
  (AgreesBut.refl (Expr.read text)).bind fun e ↦ e.agreesBut_evaluate h

/-- An unknown unit is one that the expression names. -/
theorem Expr.names_of_evaluate (h : e.evaluate t = .error (.unknownUnit symbol)) :
    e.Names symbol := by
  obtain ⟨error, herror, hf⟩ := admitsFault_of_evaluate h
  obtain ⟨hfailure, -⟩ := EvaluateError.fault_eq_failure_iff.mp hf.symm
  cases hfailure
  exact herror.1

end

namespace UnitTable

/-- Further definitions are a conservative extension: if a table is made of some definitions and
then others, the first of them make a table on their own. The two agree on every symbol of the
smaller one; and every expression, and every text, has the same outcome over both, or else fails
over the smaller one at a unit of the further definitions that it names. -/
theorem ofDefinitions_append_conservative [Platform] (h : ofDefinitions (ds ++ es) = .ok u) :
    ∃ t, ofDefinitions ds = .ok t ∧
      (∀ s ∈ t.symbols, t.get s = u.get s ∧ t.describe s = u.describe s) ∧
      (∀ e : Expr, e.evaluate t = e.evaluate u ∨ ∃ s failure,
        s ∈ es.map (·.symbol) ∧ s ∉ t.symbols ∧ e.Names s ∧
        e.evaluate t = .error (.failure failure) ∧ failure = .evaluate (.unknownUnit s) ∧
        failure.cause? = some .unitError) ∧
      ∀ text, t.calculate text = u.calculate text ∨ ∃ s,
        s ∈ es.map (·.symbol) ∧ s ∉ t.symbols ∧
        t.calculate text = .error (.failure (.evaluate (.unknownUnit s))) := by
  have hu : u.Solves (ds ++ es) := solves_of_ofDefinitions h
  rw [ofDefinitions, defineAll_append] at h
  obtain ⟨t, hds, hes⟩ := bind_eq_ok_iff.mp h
  have ht : t.Solves ds := solves_of_ofDefinitions hds
  have hext : t.IsExtendedBy u := isExtendedBy_of_defineAll hes
  refine ⟨t, hds, ?_, ?_, ?_⟩
  · intro s hs
    rw [get, get, (hext s hs).1, describe_eq, describe_eq, (hext s hs).2]
    exact ⟨rfl, rfl⟩
  · intro e
    refine (e.agreesBut_evaluate hext).imp_right ?_
    rintro ⟨s, hlacks, hfail⟩
    exact ⟨s, _, ht.mem_of_lacks hu hlacks, hlacks.2, Expr.names_of_evaluate hfail, hfail, rfl, rfl⟩
  · intro text
    refine (agreesBut_calculate hext text).imp_right ?_
    rintro ⟨s, hlacks, hfail⟩
    exact ⟨s, ht.mem_of_lacks hu hlacks, hlacks.2, hfail⟩

open Rounded in
/-- The pascal is defined after the newton. Without it, a newton per pascal is the only one of the
three texts with another outcome: a division by zero fails over both tables before the pascal is
looked up. -/
theorem ofDefinitions_append_conservative_pascal :
    let newton : UnitDefinition := ⟨"N", "newton", .one false, [("kg", 1), ("m", 1), ("s", -2)]⟩
    let pascal : UnitDefinition := ⟨"Pa", "pascal", .one false, [("N", 1), ("m", -2)]⟩
    let n : Quantity := ⟨.one false, ⟨1, -2, 0, 0, 0, 0, 1⟩⟩
    let p : Quantity := ⟨.one false, ⟨-1, -2, 0, 0, 0, 0, 1⟩⟩
    let t : UnitTable := base.insert "N" "newton" n
    let u : UnitTable := t.insert "Pa" "pascal" p
    ofDefinitions ([newton] ++ [pascal]) = .ok u ∧ ofDefinitions [newton] = .ok t ∧
      t.get "N" = u.get "N" ∧ t.calculate "2 N / m" = u.calculate "2 N / m" ∧
      t.calculate "1 / 0 + Pa" = u.calculate "1 / 0 + Pa" ∧
      (∃ q, u.calculate "N / Pa" = .ok q) ∧
      t.calculate "N / Pa" = .error (.failure (.evaluate (.unknownUnit "Pa"))) := by
  intro newton pascal n p t u
  have hu : ofDefinitions ([newton] ++ [pascal]) = .ok u := by decide +kernel
  have ht : ofDefinitions [newton] = .ok t := by decide +kernel
  obtain ⟨t', ht', hget, -, hcalculate⟩ := ofDefinitions_append_conservative hu
  cases ht.symm.trans ht'
  -- over the smaller table no text but the last one fails at the pascal
  have hlacking (text : String) (s : String) (hs : s ∈ [pascal].map (·.symbol))
      (h : t.calculate text = .error (.failure (.evaluate (.unknownUnit s)))) :
      t.calculate text = .error (.failure (.evaluate (.unknownUnit "Pa"))) := by
    rw [h, List.mem_singleton.mp hs]
  have hquotient : ∃ q, u.calculate "N / Pa" = .ok q :=
    ⟨⟨.one false, ⟨2, 0, 0, 0, 0, 0, 0⟩⟩, by decide +kernel⟩
  refine ⟨hu, ht, (hget "N" (by decide)).1, ?_, ?_, hquotient, ?_⟩
  · refine (hcalculate "2 N / m").resolve_right ?_
    rintro ⟨s, hs, -, hfail⟩
    exact absurd (hlacking _ s hs hfail) (by decide +kernel)
  · refine (hcalculate "1 / 0 + Pa").resolve_right ?_
    rintro ⟨s, hs, -, hfail⟩
    exact absurd (hlacking _ s hs hfail) (by decide +kernel)
  · rcases hcalculate "N / Pa" with heq | ⟨s, hs, -, hfail⟩
    · exact absurd heq (by decide +kernel)
    · exact hlacking _ s hs hfail

end UnitTable

end UnitCalc
