import UnitCalc.Datum
import UnitCalc.Limit

/-!
# Expressions

Trees of numbers, units and the four operations. A unit after a value, as in `3 N`, is a node of its
own. Operators are arbitrary texts here, and a leaf may hold a value that is no expression at all;
what a text yields has only proper operators and leaves, and evaluation refuses the others.
-/

namespace UnitCalc

/-- An expression. -/
inductive Expr where
  | integer (value : Int)
  | decimal (value : Binary64)
  | unit (symbol : String)
  | unitPower (symbol : String) (power : Int)
  /-- A value followed by a unit. -/
  | suffixed (value unit : Expr)
  | binary (left : Expr) (operator : String) (right : Expr)
  /-- A value that is no expression. -/
  | foreign (value : Datum)
  deriving DecidableEq

namespace Expr

/-- The structure of an expression, spelled out with all its fields. -/
def display : Expr → String
  | integer value => "PrimaryInt(value=" ++ toString value ++ ")"
  | decimal value => "PrimaryFloat(value=" ++ value.shortestText ++ ")"
  | unit symbol => "Unit(name=" ++ Text.quoted symbol ++ ")"
  | unitPower symbol power =>
    "UnitPow(name=" ++ Text.quoted symbol ++ ", power=" ++ toString power ++ ")"
  | suffixed value suffix =>
    "Quantity(value=" ++ value.display ++ ", unit=" ++ suffix.display ++ ")"
  | binary left operator right =>
    "Binary(left=" ++ left.display ++ ", op=" ++ Text.quoted operator ++ ", right="
      ++ right.display ++ ")"
  | foreign value => value.display

/-- Whether the structure may be spelled out: every whole number in it may be written. -/
def isWritable : Expr → Bool
  | integer value => Text.isWritable value
  | decimal _ | unit _ => true
  | unitPower _ power => Text.isWritable power
  | suffixed value suffix => value.isWritable && suffix.isWritable
  | binary left _ right => left.isWritable && right.isWritable
  | foreign value => value.isWritable

/-- The structure of an expression, if it may be spelled out. -/
def display? (e : Expr) : Except Limit String :=
  if e.isWritable then .ok e.display else .error .tooManyDigits

end Expr

end UnitCalc
