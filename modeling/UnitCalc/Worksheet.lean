import UnitCalc.UnitTable.Standard

/-!
# Worksheets

A worksheet is a list of steps that build dimensions and quantities and combine them. An operand is
a plain datum or the value of an earlier step, so a step may be given a value that its operation is
not for; which of several objections is raised is part of the behaviour here.
-/

namespace UnitCalc

namespace Worksheet

/-! ## Values and errors -/

/-- A value of a step. -/
inductive Value where
  | quantity (q : Quantity)
  | dimension (d : Dimension)
  | datum (d : Datum)
  deriving DecidableEq

/-- The kind of a value, as it is named in messages. -/
def Value.kind : Value → String
  | quantity _ => "siconvert.units.algebra.Quantity"
  | dimension _ => "siconvert.units.algebra.Dimension"
  | datum d => d.kind

/-- Why a step has no value. -/
inductive Error where
  | fault (fault : Fault)
  /-- There is no base unit of this name. -/
  | noBaseUnit (name : String)
  /-- An exponent of a base unit is not a whole number. -/
  | notWhole (unit : BaseUnit) (kind : String)
  /-- The exponent of a power is not a whole number. -/
  | notWholePower (kind : String)
  /-- A text is no number. -/
  | notANumber (text : String)
  /-- The operation is not for its operands. -/
  | unsupported
  deriving DecidableEq

/-- The message of an error that is not a fault, where there is one. -/
def Error.message? : Error → Option String
  | noBaseUnit name => some (Text.quoted name)
  | notWhole unit kind =>
    some ("Dimension exponent " ++ unit.name ++ " must be an integer, got <class '" ++ kind ++ "'>")
  | notWholePower kind =>
    some ("Dimension exponent must be integer, got <class '" ++ kind ++ "'>")
  | notANumber text => some ("could not convert string to float: " ++ Text.quoted text)
  | _ => none

/-! ## Building values -/

/-- A dimension from named exponents. Names are checked before exponents, and exponents in the order
of the base units. -/
def buildDimension (exponents : List (String × Datum)) : Except Error Dimension := do
  if exponents.any fun entry ↦ (BaseUnit.ofName? entry.1).isNone then throw .unsupported
  let list ← BaseUnit.all.mapM fun unit ↦
    match exponents.lookup unit.name with
    | none => pure 0
    | some (.integer n) => pure n
    | some d => throw (.notWhole unit d.kind)
  return .ofList list

/-- A plain number as a quantity. -/
def buildNumber : Datum → Except Error Quantity
  | .integer n =>
    match Binary64.ofInt? n with
    | some x => .ok (.ofNumber x)
    | none => .error (.fault (.limit .integerTooLarge))
  | .real x => .ok (.ofNumber x)
  | .boolean b => .ok (.ofNumber (if b then .one false else .zero false))
  | .text s =>
    match Binary64.read? s with
    | some x => .ok (.ofNumber x)
    | none => .error (.notANumber s)
  | .null => .error .unsupported

def buildBase (name : String) : Except Error Quantity :=
  match BaseUnit.ofName? name with
  | some unit => .ok (.ofBaseUnit unit)
  | none => .error (.noBaseUnit name)

/-! ## Combining values -/

variable [Platform]

/-- The power of a quantity. The magnitude is raised first, so its failure comes before the
objection to an exponent that is not whole. -/
def powQuantity (q : Quantity) : Value → Except Error Quantity
  | .datum (.integer n) => (q.pow n).mapError .fault
  | .datum (.real y) =>
    match q.magnitude.realPower y with
    | .error .zeroBase => .error (.fault (EvaluateError.zeroBase q (.real y)).fault)
    | .error .overflow => .error (.fault (EvaluateError.powerOutOfRange q (.real y)).fault)
    | .ok _ => .error (.notWholePower (Datum.real y).kind)
  | .datum (.boolean b) => .error (.notWholePower (Datum.boolean b).kind)
  | _ => .error .unsupported

/-- The operations on two values. -/
inductive Operator where
  | add
  | sub
  | mul
  | div
  | pow
  | eq
  deriving DecidableEq

/-- A binary operation. -/
def combine (operator : Operator) (a b : Value) : Except Error Value :=
  match operator, a, b with
  | .add, .quantity p, .quantity q => ((p.add q).map .quantity).mapError .fault
  | .sub, .quantity p, .quantity q => ((p.sub q).map .quantity).mapError .fault
  | .mul, .quantity p, .quantity q => ((p.mul q).map .quantity).mapError .fault
  | .mul, .quantity p, .datum (.integer n) => ((p.scaleInt n).map .quantity).mapError .fault
  | .mul, .datum (.integer n), .quantity q => ((q.scaleInt n).map .quantity).mapError .fault
  | .mul, .quantity p, .datum (.real x) => ((p.scale x).map .quantity).mapError .fault
  | .mul, .datum (.real x), .quantity q => ((q.scale x).map .quantity).mapError .fault
  | .mul, .dimension d, .dimension e => .ok (.dimension (d * e))
  | .div, .quantity p, .quantity q => ((p.div q).map .quantity).mapError .fault
  | .div, .dimension d, .dimension e => .ok (.dimension (d / e))
  | .pow, .quantity p, exponent => (powQuantity p exponent).map .quantity
  | .pow, .dimension d, .datum (.integer n) => .ok (.dimension (d ^ n))
  | .pow, .dimension _, exponent => .error (.notWholePower exponent.kind)
  | .eq, .quantity p, .quantity q => .ok (.datum (.boolean (p.sameQuantity q)))
  | .eq, .dimension d, .dimension e => .ok (.datum (.boolean (d == e)))
  | .eq, _, _ => .ok (.datum (.boolean false))
  | _, _, _ => .error .unsupported

/-! ## Steps -/

/-- An operand: a datum, or the value of the step with a number. -/
inductive Operand where
  | datum (d : Datum)
  | step (number : Nat)
  deriving DecidableEq

/-- A step. -/
inductive Step where
  | dimension (exponents : List (String × Datum))
  | quantity (magnitude : Binary64) (dimension : Dimension)
  | number (value : Datum)
  | base (name : String)
  | unit (symbol : String)
  | neg (a : Operand)
  | inverse (a : Operand)
  | binary (operator : Operator) (a b : Operand)

/-- The results of steps, in order. -/
abbrev Results := List (Except Error Value)

/-- The value of an operand, given the results so far. -/
def Results.operand (results : Results) : Operand → Except Error Value
  | .datum d => .ok (.datum d)
  | .step number =>
    match results[number]? with
    | some result => result
    | none => .error .unsupported

/-- A quantity as an operand that must be one. -/
def Results.quantity (results : Results) (operand : Operand) : Except Error Quantity := do
  match ← results.operand operand with
  | .quantity q => return q
  | _ => throw .unsupported

/-- The value of a step, given the results so far. -/
def Step.value (results : Results) : Step → Except Error Value
  | dimension exponents => (buildDimension exponents).map .dimension
  | quantity magnitude dims => .ok (.quantity ⟨magnitude, dims⟩)
  | number value => (buildNumber value).map .quantity
  | base name => (buildBase name).map .quantity
  | unit symbol => ((UnitTable.standard.get symbol).map .quantity).mapError .fault
  | neg a => do return .quantity (← (← results.quantity a).neg.mapError .fault)
  | inverse a => do return .quantity (← (← results.quantity a).inverse.mapError .fault)
  | binary operator a b => do combine operator (← results.operand a) (← results.operand b)

/-- The results of all steps; a step without a value does not stop the others. -/
def run (steps : List Step) : Results :=
  steps.foldl (fun results step ↦ results ++ [step.value results]) []

end Worksheet

end UnitCalc
