import UnitCalc.Text.Numeral

/-!
# Physical dimensions

A dimension assigns a whole exponent to each of the seven SI base units. Dimensions multiply, divide
and are raised to whole powers exponent by exponent, and `Dimension.exponent` is the view through
which each operation is described.
-/

namespace UnitCalc

/-! ## Base units -/

/-- The base units, in the order in which exponents are listed. -/
inductive BaseUnit where
  | meter
  | second
  | mole
  | ampere
  | kelvin
  | candela
  | kilogram
  deriving DecidableEq

namespace BaseUnit

/-- All base units, in order. -/
def all : List BaseUnit := [meter, second, mole, ampere, kelvin, candela, kilogram]

theorem mem_all (b : BaseUnit) : b ∈ all := by cases b <;> decide

def name : BaseUnit → String
  | meter => "meter"
  | second => "second"
  | mole => "mole"
  | ampere => "ampere"
  | kelvin => "kelvin"
  | candela => "candela"
  | kilogram => "kilogram"

def symbol : BaseUnit → String
  | meter => "m"
  | second => "s"
  | mole => "mol"
  | ampere => "A"
  | kelvin => "K"
  | candela => "cd"
  | kilogram => "kg"

/-- The base unit of a given name. -/
def ofName? (name : String) : Option BaseUnit := all.find? (·.name == name)

end BaseUnit

/-! ## Dimensions -/

/-- Whole exponents of the base units. -/
structure Dimension where
  meter : Int := 0
  second : Int := 0
  mole : Int := 0
  ampere : Int := 0
  kelvin : Int := 0
  candela : Int := 0
  kilogram : Int := 0
  deriving DecidableEq

namespace Dimension

/-- The exponent of a base unit. -/
def exponent (d : Dimension) : BaseUnit → Int
  | .meter => d.meter
  | .second => d.second
  | .mole => d.mole
  | .ampere => d.ampere
  | .kelvin => d.kelvin
  | .candela => d.candela
  | .kilogram => d.kilogram

/-- The dimension with given exponents. -/
def ofFun (f : BaseUnit → Int) : Dimension :=
  ⟨f .meter, f .second, f .mole, f .ampere, f .kelvin, f .candela, f .kilogram⟩

@[simp] theorem exponent_ofFun (f : BaseUnit → Int) (b : BaseUnit) :
    (ofFun f).exponent b = f b := by
  cases b <;> rfl

/-- A dimension is determined by its exponents. -/
@[ext] theorem ext_exponent {d e : Dimension} (h : ∀ b, d.exponent b = e.exponent b) : d = e := by
  cases d
  cases e
  exact congr (congr (congr (congr (congr (congr (congrArg _ (h .meter)) (h .second)) (h .mole))
    (h .ampere)) (h .kelvin)) (h .candela)) (h .kilogram)

/-- The dimension of plain numbers, with all exponents zero. -/
def dimensionless : Dimension := {}

/-- The dimension of a base unit. -/
def ofBaseUnit (b : BaseUnit) : Dimension := ofFun fun c ↦ if c = b then 1 else 0

/-- The dimension whose exponents are listed in order, missing ones being zero. -/
def ofList (exponents : List Int) : Dimension :=
  ofFun fun b ↦ exponents.getD (BaseUnit.all.idxOf b) 0

/-- The exponents in order. -/
def toList (d : Dimension) : List Int := BaseUnit.all.map d.exponent

def isDimensionless (d : Dimension) : Bool := d == dimensionless

/-! ### Algebra -/

/-- The product adds exponents. -/
def mul (d e : Dimension) : Dimension := ofFun fun b ↦ d.exponent b + e.exponent b

/-- The quotient subtracts exponents. -/
def div (d e : Dimension) : Dimension := ofFun fun b ↦ d.exponent b - e.exponent b

/-- A power multiplies every exponent. -/
def pow (d : Dimension) (n : Int) : Dimension := ofFun fun b ↦ d.exponent b * n

instance : Mul Dimension := ⟨mul⟩
instance : Div Dimension := ⟨div⟩
instance : HPow Dimension Int Dimension := ⟨pow⟩

@[simp] theorem exponent_mul (d e : Dimension) (b : BaseUnit) :
    (d * e).exponent b = d.exponent b + e.exponent b := exponent_ofFun ..

@[simp] theorem exponent_div (d e : Dimension) (b : BaseUnit) :
    (d / e).exponent b = d.exponent b - e.exponent b := exponent_ofFun ..

@[simp] theorem exponent_pow (d : Dimension) (n : Int) (b : BaseUnit) :
    (d ^ n).exponent b = d.exponent b * n := exponent_ofFun ..

@[simp] theorem exponent_dimensionless (b : BaseUnit) : dimensionless.exponent b = 0 := by
  cases b <;> rfl

/-- A quotient is a product with the inverse. -/
theorem div_eq_mul_pow (d e : Dimension) : d / e = d * e ^ (-1 : Int) := by
  ext b
  rw [exponent_div, exponent_mul, exponent_pow]
  omega

@[simp] theorem isDimensionless_iff {d : Dimension} :
    d.isDimensionless = true ↔ d = dimensionless := by
  simp [isDimensionless]

/-! ### Text -/

/-- The base units with a non-zero exponent, in order. -/
def entries (d : Dimension) : List (BaseUnit × Int) :=
  (BaseUnit.all.map fun b ↦ (b, d.exponent b)).filter fun entry ↦ entry.2 != 0

theorem mem_entries_iff {d : Dimension} {b : BaseUnit} {n : Int} :
    (b, n) ∈ d.entries ↔ n = d.exponent b ∧ n ≠ 0 := by
  rw [entries, List.mem_filter, List.mem_map]
  constructor
  · rintro ⟨⟨c, -, hc⟩, hn⟩
    cases hc
    exact ⟨rfl, by simpa using hn⟩
  · rintro ⟨rfl, hn⟩
    exact ⟨⟨b, b.mem_all, rfl⟩, by simpa using hn⟩

/-- Base symbols with their exponents, such as `m1` and `s-2`. -/
def factors (d : Dimension) : List String :=
  d.entries.map fun entry ↦ entry.1.symbol ++ toString entry.2

/-- The symbols of the base units, with the exponents. -/
def powers (d : Dimension) : List (String × Int) := (BaseUnit.all.map BaseUnit.symbol).zip d.toList

/-- The powers other than zero separated by spaces, or `dimensionless` if there are none. -/
def text (d : Dimension) : String :=
  if d.isDimensionless then "dimensionless"
  else " ".intercalate (d.powers.filterMap fun (symbol, power) ↦
    if power = 0 then none else some (symbol ++ toString power))

theorem powers_eq (d : Dimension) :
    d.powers = BaseUnit.all.map fun b ↦ (b.symbol, d.exponent b) :=
  List.zip_map' ..

theorem factors_eq_filterMap (d : Dimension) :
    d.factors = d.powers.filterMap fun (symbol, power) ↦
      if power = 0 then none else some (symbol ++ toString power) := by
  rw [factors, entries, powers_eq, List.filter_map, List.map_map, List.filterMap_map]
  induction BaseUnit.all with
  | nil => rfl
  | cons b bs ih =>
    by_cases hb : d.exponent b = 0
    · simpa [List.filter_cons, List.filterMap_cons, hb] using ih
    · simpa [List.filter_cons, List.filterMap_cons, hb] using ih

/-- A dimension is written as its factors. -/
theorem text_eq (d : Dimension) : d.text =
    if d.isDimensionless then "dimensionless" else " ".intercalate d.factors := by
  rw [text, factors_eq_filterMap]

/-- The non-zero exponents with the names of their base units, in order. -/
def named (d : Dimension) : List (String × Int) :=
  ((BaseUnit.all.map BaseUnit.name).zip d.toList).filter fun entry ↦ entry.2 != 0

/-- Whether all exponents may be written. -/
def isWritable (d : Dimension) : Bool := d.toList.all Text.isWritable

end Dimension

end UnitCalc
