import UnitCalc.Quantity.Arithmetic

/-!
# Unit tables

A unit table gives a quantity to each of its symbols. It starts with the seven base units and grows
by definitions, each of which may refer only to symbols that are already there, so that no
definition is circular. Symbols keep the order in which they were defined.
-/

namespace UnitCalc

/-- A unit defined as `scale` times a product of powers of other units. -/
structure UnitDefinition where
  symbol : String
  description : String
  scale : Binary64 := .one false
  terms : List (String × Int) := []
  deriving DecidableEq

/-- The units and their descriptions, in two dictionaries that have the same symbols. Both keep the
order of definition. -/
structure UnitTable where
  units : List (String × Quantity)
  descriptions : List (String × String)
  inStep : descriptions.map Prod.fst = units.map Prod.fst
  deriving DecidableEq

namespace UnitTable

/-! ## Lookup -/

/-- The quantity of a symbol. -/
def get? (t : UnitTable) (symbol : String) : Option Quantity := t.units.lookup symbol

/-- The quantity of a symbol, or the error that there is none. -/
def get (t : UnitTable) (symbol : String) : Except Fault Quantity :=
  match t.get? symbol with
  | some q => .ok q
  | none => .error (UnitError.unknown symbol).fault

/-- The description of a symbol. -/
def description? (t : UnitTable) (symbol : String) : Option String := t.descriptions.lookup symbol

def contains (t : UnitTable) (symbol : String) : Bool := (t.get? symbol).isSome

/-- The symbols in the order of their definition. -/
def symbols (t : UnitTable) : List String := t.units.map Prod.fst

def size (t : UnitTable) : Nat := t.units.length

theorem lookup_isSome_iff_mem {α : Type} {entries : List (String × α)} {symbol : String} :
    (entries.lookup symbol).isSome = true ↔ symbol ∈ entries.map Prod.fst := by
  rw [List.lookup_isSome_iff]
  simp

theorem mem_of_lookup {α : Type} {entries : List (String × α)} {symbol : String} {a : α}
    (h : entries.lookup symbol = some a) : (symbol, a) ∈ entries := by
  obtain ⟨before, after, rfl, -⟩ := List.lookup_eq_some_iff.mp h
  exact List.mem_append_right _ List.mem_cons_self

theorem contains_iff {t : UnitTable} {symbol : String} :
    t.contains symbol = true ↔ symbol ∈ t.symbols := lookup_isSome_iff_mem

/-- What has a quantity has a description. -/
theorem description?_isSome {t : UnitTable} {symbol : String} {q : Quantity}
    (h : t.get? symbol = some q) : (t.description? symbol).isSome = true := by
  rw [description?, lookup_isSome_iff_mem, t.inStep, ← lookup_isSome_iff_mem, ← get?, h]
  rfl

/-- The description of a symbol, or the error that there is none. The quantity is looked up first.
-/
def describe (t : UnitTable) (symbol : String) : Except Fault String :=
  match h : t.get? symbol with
  | some _ => .ok ((t.description? symbol).get (description?_isSome h))
  | none => .error (UnitError.unknown symbol).fault

/-- The symbols with their descriptions and quantities, in the order of their definition. -/
def rows (t : UnitTable) : Except Fault (List (String × String × Quantity)) :=
  t.units.mapM fun (symbol, q) ↦ do return (symbol, ← t.describe symbol, q)

/-! ## Definition -/

/-- The table with one more unit, behind the others. -/
def insert (t : UnitTable) (symbol description : String) (q : Quantity) : UnitTable where
  units := t.units ++ [(symbol, q)]
  descriptions := t.descriptions ++ [(symbol, description)]
  inStep := by rw [List.map_append, List.map_append, t.inStep]; rfl

/-- The symbols and descriptions of the base units. -/
def baseRows : List (String × String × BaseUnit) :=
  [ ("m", "meter", .meter),
    ("s", "second", .second),
    ("mol", "mole", .mole),
    ("A", "ampere", .ampere),
    ("K", "kelvin", .kelvin),
    ("cd", "candela", .candela),
    ("kg", "kilogram", .kilogram) ]

/-- The table of the base units. -/
def base : UnitTable :=
  baseRows.foldl (fun t (symbol, description, b) ↦ t.insert symbol description (.ofBaseUnit b))
    ⟨[], [], rfl⟩

theorem units_base :
    base.units = baseRows.map fun (symbol, _, b) ↦ (symbol, Quantity.ofBaseUnit b) := rfl

/-- The base units have the symbols that dimensions are written with. -/
theorem baseRows_eq : baseRows = BaseUnit.all.map fun b ↦ (b.symbol, b.name, b) := rfl

variable [Platform]

/-- The power of a unit that a definition refers to. -/
def term (t : UnitTable) (symbol reference : String) (power : Int) : Except Fault Quantity :=
  match t.get? reference with
  | some unit => unit.pow power
  | none => .error (UnitError.undefinedReference symbol reference).fault

/-- The quantity of a definition, its terms multiplied from left to right. -/
def compose (t : UnitTable) (d : UnitDefinition) : Except Fault Quantity :=
  d.terms.foldlM (fun value (reference, power) ↦ do value.mul (← t.term d.symbol reference power))
    (.ofNumber d.scale)

/-- The table with one more definition. -/
def define (t : UnitTable) (d : UnitDefinition) : Except Fault UnitTable :=
  if t.contains d.symbol then .error (UnitError.definedTwice d.symbol).fault
  else do return t.insert d.symbol d.description (← t.compose d)

/-- The table with more definitions, made in order. -/
def defineAll (t : UnitTable) (definitions : List UnitDefinition) : Except Fault UnitTable :=
  definitions.foldlM define t

/-- The base units with definitions, made in order. -/
def ofDefinitions (definitions : List UnitDefinition) : Except Fault UnitTable :=
  base.defineAll definitions

theorem defineAll_append (t : UnitTable) (ds es : List UnitDefinition) :
    t.defineAll (ds ++ es) = t.defineAll ds >>= fun u ↦ u.defineAll es :=
  List.foldlM_append

end UnitTable

end UnitCalc
