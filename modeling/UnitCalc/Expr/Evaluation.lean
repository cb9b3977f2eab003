import UnitCalc.Expr.Basic
import UnitCalc.UnitTable.Basic

/-!
# The value of an expression

An expression is evaluated over a unit table, operands from left to right. A difference negates its
right-hand side and adds, a quotient inverts its right-hand side and multiplies. An unknown operator
is reported before its operands are looked at.
-/

namespace UnitCalc

/-- The four operations. -/
inductive Operation where
  | add
  | sub
  | mul
  | div
  deriving DecidableEq

namespace Operation

/-- The operation that an operator stands for. -/
def ofText? : String → Option Operation
  | "+" => some add
  | "-" => some sub
  | "*" => some mul
  | "/" => some div
  | _ => none

/-- The operation on quantities. -/
def run [Platform] : Operation → Quantity → Quantity → Except Fault Quantity
  | add => Quantity.add
  | sub => Quantity.sub
  | mul => Quantity.mul
  | div => Quantity.div

end Operation

/-- The quantity of a unit in an expression. -/
def UnitTable.lookup (t : UnitTable) (symbol : String) : Except Fault Quantity :=
  match t.get? symbol with
  | some q => .ok q
  | none => .error (EvaluateError.unknownUnit symbol).fault

namespace Expr

variable [Platform]

/-- The quantity that an expression denotes. -/
def evaluate (table : UnitTable) : Expr → Except Fault Quantity
  | integer value =>
    match Binary64.ofInt? value with
    | some x => .ok (.ofNumber x)
    | none => .error EvaluateError.literalOutOfRange.fault
  | decimal value => .ok (.ofNumber value)
  | unit symbol => table.lookup symbol
  | unitPower symbol power => do (← table.lookup symbol).pow power
  | suffixed value suffix => do
    let v ← value.evaluate table
    let u ← suffix.evaluate table
    v.mul u
  | binary left operator right =>
    match Operation.ofText? operator with
    | none => .error (EvaluateError.badOperator operator).fault
    | some operation => do
      let l ← left.evaluate table
      let r ← right.evaluate table
      operation.run l r
  | foreign value => .error (EvaluateError.notAnExpression value).fault

section

variable (table : UnitTable)

theorem evaluate_integer (value : Int) : (integer value).evaluate table =
    match Binary64.ofInt? value with
    | some x => .ok (.ofNumber x)
    | none => .error EvaluateError.literalOutOfRange.fault := by
  rfl

theorem evaluate_unit (symbol : String) : (unit symbol).evaluate table = table.lookup symbol := rfl

theorem evaluate_unitPower (symbol : String) (power : Int) :
    (unitPower symbol power).evaluate table = table.lookup symbol >>= (·.pow power) := rfl

theorem evaluate_suffixed (value suffix : Expr) : (suffixed value suffix).evaluate table =
    value.evaluate table >>= fun v ↦ suffix.evaluate table >>= fun u ↦ v.mul u := rfl

theorem evaluate_binary (left right : Expr) (operator : String) :
    (binary left operator right).evaluate table =
      match Operation.ofText? operator with
      | none => .error (EvaluateError.badOperator operator).fault
      | some operation =>
        left.evaluate table >>= fun l ↦ right.evaluate table >>= fun r ↦ operation.run l r := rfl

theorem evaluate_foreign (value : Datum) :
    (foreign value).evaluate table = .error (EvaluateError.notAnExpression value).fault := rfl

end

end Expr

end UnitCalc
