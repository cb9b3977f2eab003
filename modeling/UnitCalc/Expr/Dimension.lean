import UnitCalc.Expr.Evaluation

/-!
# The dimension of an expression

The dimension that an expression has if it has a value, found without looking at any magnitude. An
expression without a dimension is not well formed: it adds terms of different dimensions, names a
unit that is not there, or holds an operator or a leaf that means nothing.
-/

namespace UnitCalc

/-- The dimension of a symbol of a table. -/
def UnitTable.dimension? (t : UnitTable) (symbol : String) : Option Dimension :=
  (t.get? symbol).map (·.dimension)

/-- The dimension of a result, from those of the operands. -/
def Operation.dimension? : Operation → Dimension → Dimension → Option Dimension
  | add, d, e | sub, d, e => if d = e then some d else none
  | mul, d, e => some (d * e)
  | div, d, e => some (d / e)

/-- The dimension of an expression, given those of the units. -/
def Expr.dimension? (units : String → Option Dimension) : Expr → Option Dimension
  | integer _ | decimal _ => some .dimensionless
  | unit symbol => units symbol
  | unitPower symbol power => (units symbol).map (· ^ power)
  | suffixed value suffix => do return (← value.dimension? units) * (← suffix.dimension? units)
  | binary left operator right => do
    let operation ← Operation.ofText? operator
    operation.dimension? (← left.dimension? units) (← right.dimension? units)
  | foreign _ => none

end UnitCalc
