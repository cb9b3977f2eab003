import Mathlib.Data.List.Nodup
import UnitCalc.Proofs.Binary64.Rounded
import UnitCalc.Proofs.Except
import UnitCalc.UnitTable.Standard

/-!
# Tables solve their definitions

A table made from definitions satisfies each of them as an equation: the quantity of a defined unit
is the product that its definition writes down, with every reference looked up in the finished
table. The table is built step by step, and a definition is composed from what is known at its turn;
the equation survives because no later step changes what an earlier one has seen.

One step is described by `define_eq_ok_iff` and `define_eq_error_iff`, and by what it does to lookup
in the two dictionaries (`get?_of_define`, `description?_of_define`) and to products
(`isProduct_of_define`). The invariant of the run is `Solves`: a step extends it by the definition
that is made, and a whole run follows by induction on the definitions that are still to be made.
-/

namespace UnitCalc

variable {units units' : String → Option Quantity} {t u : UnitTable} {d : UnitDefinition}
  {before after ds : List UnitDefinition} {f : Fault} {v w q : Quantity} {symbol s text : String}
  {term : String × Int} {terms : List (String × Int)}

/-! ## Products of terms -/

section

variable [Platform]

/-- `w` is `v` times the power of a unit that the term asks for. -/
def Multiplies (units : String → Option Quantity) (v : Quantity) (term : String × Int)
    (w : Quantity) : Prop :=
  ∃ unit p, units term.1 = some unit ∧ unit.pow term.2 = .ok p ∧ v.mul p = .ok w

/-- `q` is `v` times the powers that the terms ask for, multiplied from left to right. -/
inductive IsProduct (units : String → Option Quantity) :
    Quantity → List (String × Int) → Quantity → Prop where
  | nil {v : Quantity} : IsProduct units v [] v
  | cons {v w q : Quantity} {term : String × Int} {terms : List (String × Int)} :
    Multiplies units v term w → IsProduct units w terms q → IsProduct units v (term :: terms) q

/-- The unit of the term is known, but the fault is that of its power or of the product of `v` with
the power. -/
def ArithmeticFault (units : String → Option Quantity) (v : Quantity) (term : String × Int)
    (f : Fault) : Prop :=
  ∃ unit, units term.1 = some unit ∧
    (unit.pow term.2 = .error f ∨ ∃ p, unit.pow term.2 = .ok p ∧ v.mul p = .error f)

/-- The fault of multiplying `v` by the term, in the definition of a symbol. -/
def TermFault (units : String → Option Quantity) (symbol : String) (v : Quantity)
    (term : String × Int) (f : Fault) : Prop :=
  (units term.1 = none ∧ f = (UnitError.undefinedReference symbol term.1).fault) ∨
    ArithmeticFault units v term f

/-- The terms before this one can be multiplied, and give `v` together with the scale. -/
def UnitDefinition.Reaches (d : UnitDefinition) (units : String → Option Quantity)
    (term : String × Int) (v : Quantity) : Prop :=
  ∃ earlier later, d.terms = earlier ++ term :: later ∧
    IsProduct units (.ofNumber d.scale) earlier v

theorem IsProduct.isSome_of_mem (h : IsProduct units v terms q) (hterm : term ∈ terms) :
    (units term.1).isSome = true := by
  induction h with
  | nil => exact absurd hterm (by simp)
  | cons hmul _ ih =>
    rcases List.mem_cons.mp hterm with rfl | hterm
    · obtain ⟨unit, p, hunit, -⟩ := hmul
      rw [hunit, Option.isSome_some]
    · exact ih hterm

/-- A product depends only on the units of its terms. -/
theorem IsProduct.mono (h : IsProduct units v terms q)
    (hunits : ∀ term ∈ terms, ∀ unit, units term.1 = some unit → units' term.1 = some unit) :
    IsProduct units' v terms q := by
  induction h with
  | nil => exact .nil
  | cons hmul _ ih =>
    obtain ⟨hterm, hterms⟩ := List.forall_mem_cons.mp hunits
    obtain ⟨unit, p, hunit, hp⟩ := hmul
    exact .cons ⟨unit, p, hterm unit hunit, hp⟩ (ih hterms)

end

namespace UnitTable

section

variable [Platform]

/-- The value of a definition so far, multiplied by one more term. -/
def multiply (t : UnitTable) (symbol : String) (v : Quantity) (term : String × Int) :
    Except Fault Quantity :=
  t.term symbol term.1 term.2 >>= v.mul

theorem compose_eq_foldlM :
    t.compose d = d.terms.foldlM (t.multiply d.symbol) (.ofNumber d.scale) := rfl

theorem multiply_eq_ok_iff : t.multiply symbol v term = .ok w ↔ Multiplies t.get? v term w := by
  rw [multiply, bind_eq_ok_iff, UnitTable.term, Multiplies]
  cases t.get? term.1 with
  | none => simp
  | some unit => simp

theorem multiply_eq_error_iff :
    t.multiply symbol v term = .error f ↔ TermFault t.get? symbol v term f := by
  rw [multiply, bind_eq_error_iff, UnitTable.term, TermFault, ArithmeticFault]
  cases t.get? term.1 with
  | none => simp [eq_comm]
  | some unit => simp

theorem foldlM_multiply_eq_ok_iff :
    terms.foldlM (t.multiply symbol) v = .ok q ↔ IsProduct t.get? v terms q := by
  induction terms generalizing v with
  | nil =>
    constructor
    · rintro ⟨⟩
      exact .nil
    · rintro ⟨⟩
      rfl
  | cons term terms ih =>
    rw [List.foldlM_cons, bind_eq_ok_iff]
    constructor
    · rintro ⟨w, hw, h⟩
      exact .cons (multiply_eq_ok_iff.mp hw) (ih.mp h)
    · intro h
      cases h with
      | cons hw h => exact ⟨_, multiply_eq_ok_iff.mpr hw, ih.mpr h⟩

/-- A definition is composed of the product of its terms. -/
theorem compose_eq_ok_iff :
    t.compose d = .ok q ↔ IsProduct t.get? (.ofNumber d.scale) d.terms q :=
  foldlM_multiply_eq_ok_iff

/-- A definition fails at its first term that cannot be multiplied. -/
theorem compose_eq_error_iff : t.compose d = .error f ↔
    ∃ term v, d.Reaches t.get? term v ∧ TermFault t.get? d.symbol v term f := by
  rw [compose_eq_foldlM, foldlM_eq_error_iff]
  constructor
  · rintro ⟨earlier, term, later, v, hterms, hv, hf⟩
    exact ⟨term, v, ⟨earlier, later, hterms, foldlM_multiply_eq_ok_iff.mp hv⟩,
      multiply_eq_error_iff.mp hf⟩
  · rintro ⟨term, v, ⟨earlier, later, hterms, hv⟩, hf⟩
    exact ⟨earlier, term, later, v, hterms, foldlM_multiply_eq_ok_iff.mpr hv,
      multiply_eq_error_iff.mpr hf⟩

end

/-! ## Known symbols -/

/-- The symbols of the base units and of the definitions, in order. -/
def knownSymbols (ds : List UnitDefinition) : List String :=
  BaseUnit.all.map (·.symbol) ++ ds.map (·.symbol)

theorem symbol_mem_knownSymbols_of_base (b : BaseUnit) : b.symbol ∈ knownSymbols ds :=
  List.mem_append_left _ (List.mem_map_of_mem b.mem_all)

theorem symbol_mem_knownSymbols (hd : d ∈ ds) : d.symbol ∈ knownSymbols ds :=
  List.mem_append_right _ (List.mem_map_of_mem hd)

theorem knownSymbols_concat : knownSymbols (ds ++ [d]) = knownSymbols ds ++ [d.symbol] := by
  simp [knownSymbols]

/-- In a list without repetition each symbol is new at its turn. -/
theorem symbol_notMem_of_nodup (h : (knownSymbols (before ++ d :: after)).Nodup) :
    d.symbol ∉ knownSymbols before := by
  rw [knownSymbols, List.map_append, ← List.append_assoc] at h
  intro hd
  exact (List.nodup_append.mp h).2.2 _ hd _ (by simp) rfl

theorem get?_isSome_iff : (t.get? s).isSome = true ↔ s ∈ t.symbols := contains_iff

theorem get?_eq_none_iff : t.get? s = none ↔ s ∉ t.symbols := by
  rw [← get?_isSome_iff, Option.not_isSome_iff_eq_none]

theorem description?_isSome_iff : (t.description? s).isSome = true ↔ s ∈ t.symbols := by
  rw [description?, lookup_isSome_iff_mem, t.inStep, symbols]

theorem description?_eq_none_iff : t.description? s = none ↔ s ∉ t.symbols := by
  rw [← description?_isSome_iff, Option.not_isSome_iff_eq_none]

/-- Behind a dictionary without the symbol, an entry is found under its symbol alone. -/
theorem lookup_concat {α : Type} {entries : List (String × α)} {a : α}
    (h : entries.lookup symbol = none) :
    (entries ++ [(symbol, a)]).lookup s = if s = symbol then some a else entries.lookup s := by
  rw [List.lookup_append, List.lookup_cons, List.lookup_nil]
  by_cases hs : s = symbol
  · rw [if_pos hs, hs, h, beq_self_eq_true]
    rfl
  · rw [if_neg hs, beq_false_of_ne hs]
    exact Option.or_none

/-! ## Lookup -/

theorem get_eq_ok_iff : t.get s = .ok q ↔ t.get? s = some q := by
  rw [get]
  cases t.get? s with
  | none => simp
  | some q => simp

theorem get_isOk_iff : (∃ q, t.get s = .ok q) ↔ s ∈ t.symbols := by
  rw [← get?_isSome_iff, Option.isSome_iff_exists]
  simp only [get_eq_ok_iff]

/-- A symbol is described with its description: the quantity that is looked up first is there as
well. -/
theorem describe_eq (t : UnitTable) (s : String) : t.describe s =
    match t.description? s with
    | some text => .ok text
    | none => .error (UnitError.unknown s).fault := by
  unfold describe
  split
  · next q hq =>
    obtain ⟨text, htext⟩ := Option.isSome_iff_exists.mp (description?_isSome hq)
    simp only [htext, Option.get_some]
  · next hnone =>
    rw [description?_eq_none_iff.mpr (get?_eq_none_iff.mp hnone)]

theorem describe_eq_ok_iff : t.describe s = .ok text ↔ t.description? s = some text := by
  rw [describe_eq]
  cases t.description? s with
  | none => simp
  | some text => simp

theorem describe_isOk_iff : (∃ text, t.describe s = .ok text) ↔ s ∈ t.symbols := by
  rw [← description?_isSome_iff, Option.isSome_iff_exists]
  simp only [describe_eq_ok_iff]

/-! ## One definition -/

section

variable [Platform]

theorem define_eq_ok_iff : t.define d = .ok u ↔ d.symbol ∉ t.symbols ∧
    ∃ q, t.compose d = .ok q ∧ u = t.insert d.symbol d.description q := by
  rw [define]
  by_cases hd : d.symbol ∈ t.symbols
  · rw [if_pos (contains_iff.mpr hd)]
    simp [hd]
  · rw [if_neg (mt contains_iff.mp hd), bind_eq_ok_iff]
    simp [hd, pure, Except.pure, eq_comm]

theorem define_eq_error_iff : t.define d = .error f ↔
    (d.symbol ∈ t.symbols ∧ f = (UnitError.definedTwice d.symbol).fault) ∨
      (d.symbol ∉ t.symbols ∧ t.compose d = .error f) := by
  rw [define]
  by_cases hd : d.symbol ∈ t.symbols
  · rw [if_pos (contains_iff.mpr hd)]
    simp [hd, eq_comm]
  · rw [if_neg (mt contains_iff.mp hd), bind_eq_error_iff]
    simp [hd, pure, Except.pure]

theorem symbols_of_define (h : t.define d = .ok u) : u.symbols = t.symbols ++ [d.symbol] := by
  obtain ⟨-, q, -, rfl⟩ := define_eq_ok_iff.mp h
  exact List.map_append

/-- A definition adds the unit of its symbol, and changes no other. -/
theorem get?_of_define (h : t.define d = .ok u) :
    ∃ q, IsProduct t.get? (.ofNumber d.scale) d.terms q ∧
      ∀ s, u.get? s = if s = d.symbol then some q else t.get? s := by
  obtain ⟨hd, q, hq, rfl⟩ := define_eq_ok_iff.mp h
  exact ⟨q, compose_eq_ok_iff.mp hq, fun s ↦ lookup_concat (get?_eq_none_iff.mpr hd)⟩

/-- A definition adds the description of its symbol, and changes no other. -/
theorem description?_of_define (h : t.define d = .ok u) (s : String) :
    u.description? s = if s = d.symbol then some d.description else t.description? s := by
  obtain ⟨hd, q, -, rfl⟩ := define_eq_ok_iff.mp h
  exact lookup_concat (description?_eq_none_iff.mpr hd)

theorem get?_of_define_of_mem (h : t.define d = .ok u) (hs : s ∈ t.symbols) :
    u.get? s = t.get? s := by
  obtain ⟨q, -, hget⟩ := get?_of_define h
  rw [hget, if_neg (ne_of_mem_of_not_mem hs (define_eq_ok_iff.mp h).1)]

theorem description?_of_define_of_mem (h : t.define d = .ok u) (hs : s ∈ t.symbols) :
    u.description? s = t.description? s := by
  rw [description?_of_define h, if_neg (ne_of_mem_of_not_mem hs (define_eq_ok_iff.mp h).1)]

/-- A definition does not change the products that were taken before it. -/
theorem isProduct_of_define (h : t.define d = .ok u) (hproduct : IsProduct t.get? v terms q) :
    IsProduct u.get? v terms q := by
  refine hproduct.mono fun term hterm unit hunit ↦ ?_
  have hknown : term.1 ∈ t.symbols := get?_isSome_iff.mp (hproduct.isSome_of_mem hterm)
  rw [get?_of_define_of_mem h hknown, hunit]

/-! ## Solved definitions -/

/-- The table holds the base units and, for every definition, the product that it writes down over
the table itself, all of them with their descriptions. -/
structure Solves (t : UnitTable) (ds : List UnitDefinition) : Prop where
  symbols : t.symbols = knownSymbols ds
  nodup : (knownSymbols ds).Nodup
  base : ∀ b : BaseUnit, t.get? b.symbol = some (.ofBaseUnit b)
  baseDescription : ∀ b : BaseUnit, t.description? b.symbol = some b.name
  equation : ∀ d ∈ ds, ∃ q, IsProduct t.get? (.ofNumber d.scale) d.terms q ∧
    t.get? d.symbol = some q
  description : ∀ d ∈ ds, t.description? d.symbol = some d.description

theorem solves_base : base.Solves [] where
  symbols := rfl
  nodup := by decide
  base b := by cases b <;> rfl
  baseDescription b := by cases b <;> rfl
  equation _ hd := absurd hd (by simp)
  description _ hd := absurd hd (by simp)

/-- One more definition is solved, and leaves those before it solved. -/
theorem Solves.define (ht : t.Solves ds) (h : t.define d = .ok u) : u.Solves (ds ++ [d]) := by
  have hget : ∀ s ∈ knownSymbols ds, u.get? s = t.get? s := fun s hs ↦
    get?_of_define_of_mem h (ht.symbols ▸ hs)
  have hdescription : ∀ s ∈ knownSymbols ds, u.description? s = t.description? s := fun s hs ↦
    description?_of_define_of_mem h (ht.symbols ▸ hs)
  constructor
  case symbols => rw [symbols_of_define h, ht.symbols, knownSymbols_concat]
  case nodup =>
    have hfresh : d.symbol ∉ knownSymbols ds := ht.symbols ▸ (define_eq_ok_iff.mp h).1
    rw [knownSymbols_concat]
    refine List.nodup_append.mpr ⟨ht.nodup, List.nodup_singleton _, ?_⟩
    intro s hs s' hs'
    rw [List.mem_singleton.mp hs']
    exact ne_of_mem_of_not_mem hs hfresh
  case base =>
    intro b
    rw [hget _ (symbol_mem_knownSymbols_of_base b), ht.base b]
  case baseDescription =>
    intro b
    rw [hdescription _ (symbol_mem_knownSymbols_of_base b), ht.baseDescription b]
  case equation =>
    intro e he
    rcases List.mem_append.mp he with he | he
    · obtain ⟨p, hp, hvalue⟩ := ht.equation e he
      refine ⟨p, isProduct_of_define h hp, ?_⟩
      rw [hget _ (symbol_mem_knownSymbols he), hvalue]
    · obtain ⟨q, hq, hnew⟩ := get?_of_define h
      rw [List.mem_singleton.mp he]
      exact ⟨q, isProduct_of_define h hq, (hnew _).trans (if_pos rfl)⟩
  case description =>
    intro e he
    rcases List.mem_append.mp he with he | he
    · rw [hdescription _ (symbol_mem_knownSymbols he), ht.description e he]
    · rw [List.mem_singleton.mp he, description?_of_define h, if_pos rfl]

theorem Solves.defineAll (ht : t.Solves before) (h : t.defineAll after = .ok u) :
    u.Solves (before ++ after) := by
  induction after generalizing t before with
  | nil =>
    cases h
    rwa [List.append_nil]
  | cons d after ih =>
    obtain ⟨t', ht', h⟩ := bind_eq_ok_iff.mp h
    have := ih (ht.define ht') h
    rwa [List.append_assoc, List.singleton_append] at this

/-- A table solves the definitions that it is made from. -/
theorem solves_of_ofDefinitions (h : ofDefinitions ds = .ok t) : t.Solves ds :=
  solves_base.defineAll h

/-! ## Success and failure -/

/-- Every reference is to a base unit or to a unit defined before. -/
def RefersBack (ds : List UnitDefinition) : Prop :=
  ∀ before d after, ds = before ++ d :: after → ∀ term ∈ d.terms, term.1 ∈ knownSymbols before

/-- No power and no product fails that is taken for a definition over the table of those before. -/
def Computes (ds : List UnitDefinition) : Prop :=
  ∀ before d after t, ds = before ++ d :: after → ofDefinitions before = .ok t →
    ∀ term v f, d.Reaches t.get? term v → ¬ ArithmeticFault t.get? v term f

/-- The fault of a definition over a table: its symbol is defined already, or else it is that of the
first term that cannot be multiplied. -/
def Offends (t : UnitTable) (d : UnitDefinition) (f : Fault) : Prop :=
  (d.symbol ∈ t.symbols ∧ f = (UnitError.definedTwice d.symbol).fault) ∨
    (d.symbol ∉ t.symbols ∧
      ∃ term v, d.Reaches t.get? term v ∧ TermFault t.get? d.symbol v term f)

theorem define_eq_error_iff_offends : t.define d = .error f ↔ t.Offends d f := by
  rw [define_eq_error_iff, compose_eq_error_iff, Offends]

/-- A table is not made exactly if one of the definitions offends, those before it having made a
table. -/
theorem ofDefinitions_eq_error_iff : ofDefinitions ds = .error f ↔
    ∃ before d after t, ds = before ++ d :: after ∧ ofDefinitions before = .ok t ∧
      t.Offends d f := by
  rw [ofDefinitions, defineAll, foldlM_eq_error_iff]
  simp only [define_eq_error_iff_offends]
  rfl

/-- Each definition of a table is made over the table of those before it. -/
theorem exists_define_of_ofDefinitions (h : ofDefinitions (before ++ d :: after) = .ok u) :
    ∃ t t', ofDefinitions before = .ok t ∧ t.define d = .ok t' := by
  rw [ofDefinitions, defineAll_append] at h
  obtain ⟨t, ht, h⟩ := bind_eq_ok_iff.mp h
  obtain ⟨t', ht', -⟩ := bind_eq_ok_iff.mp h
  exact ⟨t, t', ht, ht'⟩

theorem refersBack_of_ofDefinitions (h : ofDefinitions ds = .ok t) : RefersBack ds := by
  rintro before d after rfl term hterm
  obtain ⟨t₀, t₁, h₀, h₁⟩ := exists_define_of_ofDefinitions h
  obtain ⟨q, hq, -⟩ := get?_of_define h₁
  rw [← (solves_of_ofDefinitions h₀).symbols, ← get?_isSome_iff]
  exact hq.isSome_of_mem hterm

theorem computes_of_ofDefinitions (h : ofDefinitions ds = .ok t) : Computes ds := by
  rintro before d after t₀ rfl h₀ term v f hreaches hf
  obtain ⟨t₀', t₁, h₀', h₁⟩ := exists_define_of_ofDefinitions h
  cases h₀.symm.trans h₀'
  obtain ⟨-, q, hq, -⟩ := define_eq_ok_iff.mp h₁
  cases hq.symm.trans (compose_eq_error_iff.mpr ⟨term, v, hreaches, .inr hf⟩)

/-- A definition does not offend if its symbol is new, its references are known and the arithmetic
does not fail. -/
theorem ofDefinitions_ne_error (hnodup : (knownSymbols ds).Nodup) (hback : RefersBack ds)
    (hcomputes : Computes ds) : ofDefinitions ds ≠ .error f := by
  intro h
  obtain ⟨before, d, after, t, hds, ht, hf⟩ := ofDefinitions_eq_error_iff.mp h
  have hsymbols := (solves_of_ofDefinitions ht).symbols
  rcases hf with ⟨hd, -⟩ | ⟨-, term, v, hreaches, hf⟩
  · -- the symbol of the definition would be there twice
    exact symbol_notMem_of_nodup (hds ▸ hnodup) (hsymbols ▸ hd)
  · rcases hf with ⟨hnone, -⟩ | hf
    · obtain ⟨earlier, later, hterms, -⟩ := hreaches
      have hknown := hback before d after hds term (by simp [hterms])
      rw [← hsymbols, ← get?_isSome_iff, hnone] at hknown
      cases hknown
    · exact hcomputes before d after t hds ht term v f hreaches hf

theorem exists_ofDefinitions_iff : (∃ t, ofDefinitions ds = .ok t) ↔
    (knownSymbols ds).Nodup ∧ RefersBack ds ∧ Computes ds := by
  constructor
  · rintro ⟨t, ht⟩
    exact ⟨(solves_of_ofDefinitions ht).nodup, refersBack_of_ofDefinitions ht,
      computes_of_ofDefinitions ht⟩
  · rintro ⟨hnodup, hback, hcomputes⟩
    cases h : ofDefinitions ds with
    | ok t => exact ⟨t, rfl⟩
    | error f => exact absurd h (ofDefinitions_ne_error hnodup hback hcomputes)

/-- A table solves all its own definitions. It is made exactly if no symbol is defined twice, every
reference is to a base unit or an earlier definition, and no power or product fails. Then its
symbols are those of the base units and of the definitions, which all lookups agree on; the base
units are what they were; and the unit of each definition is the scale times the powers of the
units that the finished table has for its references. Otherwise the fault is that of the first
definition that offends. -/
theorem ofDefinitions_solves (ds : List UnitDefinition) :
    ((∃ t, ofDefinitions ds = .ok t) ↔ (knownSymbols ds).Nodup ∧ RefersBack ds ∧ Computes ds) ∧
    (∀ t, ofDefinitions ds = .ok t →
      t.symbols = knownSymbols ds ∧
      (∀ s, ((∃ q, t.get s = .ok q) ↔ s ∈ t.symbols) ∧
        ((∃ text, t.describe s = .ok text) ↔ s ∈ t.symbols) ∧
        (t.contains s = true ↔ s ∈ t.symbols)) ∧
      (∀ b : BaseUnit, t.get b.symbol = .ok (.ofBaseUnit b) ∧ t.describe b.symbol = .ok b.name) ∧
      ∀ d ∈ ds, t.describe d.symbol = .ok d.description ∧
        ∃ q, t.get d.symbol = .ok q ∧ IsProduct t.get? (.ofNumber d.scale) d.terms q) ∧
    ∀ f, ofDefinitions ds = .error f ↔ ∃ before d after t, ds = before ++ d :: after ∧
      ofDefinitions before = .ok t ∧ t.Offends d f := by
  refine ⟨exists_ofDefinitions_iff, ?_, fun f ↦ ofDefinitions_eq_error_iff⟩
  intro t h
  have ht := solves_of_ofDefinitions h
  refine ⟨ht.symbols, fun s ↦ ⟨get_isOk_iff, describe_isOk_iff, contains_iff⟩, ?_, ?_⟩
  · intro b
    exact ⟨get_eq_ok_iff.mpr (ht.base b), describe_eq_ok_iff.mpr (ht.baseDescription b)⟩
  · intro d hd
    obtain ⟨q, hq, hvalue⟩ := ht.equation d hd
    exact ⟨describe_eq_ok_iff.mpr (ht.description d hd), q, get_eq_ok_iff.mpr hvalue, hq⟩

end

open Rounded in
/-- A table with the newton and the pascal solves their definitions; a third definition, of a symbol
that a base unit has, offends. -/
theorem ofDefinitions_solves_pascal :
    let newton : UnitDefinition := ⟨"N", "newton", .one false, [("kg", 1), ("m", 1), ("s", -2)]⟩
    let pascal : UnitDefinition := ⟨"Pa", "pascal", .one false, [("N", 1), ("m", -2)]⟩
    let kayser : UnitDefinition := ⟨"K", "kayser", .ofRatio 100 1, [("m", -1)]⟩
    let n : Quantity := ⟨.one false, ⟨1, -2, 0, 0, 0, 0, 1⟩⟩
    let p : Quantity := ⟨.one false, ⟨-1, -2, 0, 0, 0, 0, 1⟩⟩
    let t : UnitTable := (base.insert "N" "newton" n).insert "Pa" "pascal" p
    (ofDefinitions [newton, pascal] = .ok t ∧ RefersBack [newton, pascal] ∧
      t.get "Pa" = .ok p ∧ IsProduct t.get? (.ofNumber (.one false)) [("N", 1), ("m", -2)] p) ∧
    ofDefinitions [newton, pascal, kayser] = .error (UnitError.definedTwice "K").fault ∧
      ¬ (∃ u, ofDefinitions [newton, pascal, kayser] = .ok u) ∧
      ∃ before d after u, [newton, pascal, kayser] = before ++ d :: after ∧
        ofDefinitions before = .ok u ∧ u.Offends d (UnitError.definedTwice "K").fault := by
  intro newton pascal kayser n p t
  have h : ofDefinitions [newton, pascal] = .ok t := by decide +kernel
  have hp : t.get "Pa" = .ok p := by decide +kernel
  have hk : ofDefinitions [newton, pascal, kayser] = .error (UnitError.definedTwice "K").fault := by
    decide +kernel
  obtain ⟨hiff, hok, -⟩ := ofDefinitions_solves [newton, pascal]
  obtain ⟨-, hback, -⟩ := hiff.mp ⟨t, h⟩
  obtain ⟨-, q, hq, hproduct⟩ := (hok t h).2.2.2 pascal (by simp)
  cases hp.symm.trans hq
  obtain ⟨hiff', -, herror⟩ := ofDefinitions_solves [newton, pascal, kayser]
  refine ⟨⟨h, hback, hp, hproduct⟩, hk, ?_, (herror _).mp hk⟩
  rw [hiff']
  rintro ⟨hnodup, -⟩
  exact absurd hnodup (by decide)

end UnitTable

end UnitCalc
