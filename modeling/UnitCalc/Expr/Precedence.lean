import UnitCalc.Expr.Evaluation
import UnitCalc.Token.Basic

/-!
# Evaluation by operator precedence

The value of a list of tokens, found in one pass over them and without a tree. One stack holds
values, another the operations and open parentheses that wait for a right-hand side. An operator
first applies the waiting operations that bind at least as tightly as it does, down to the nearest
open parenthesis; a closing parenthesis and the end of the tokens apply all of them. A unit behind a
value multiplies it at once, so it binds tighter than every operator.

Tokens that are no expression are refused with some parse error, if no value fails before that.

Nothing here is run: it is what evaluation over the tree is compared with.
-/

namespace UnitCalc

/-- How tightly an operation binds. -/
def Operation.precedence : Operation → Nat
  | add | sub => 0
  | mul | div => 1

/-- The operation that a token stands for. -/
def Token.operation? : Token → Option Operation
  | .additive "+" => some .add
  | .additive "-" => some .sub
  | .multiplicative "*" => some .mul
  | .multiplicative "/" => some .div
  | _ => none

namespace Precedence

/-! ## Stacks -/

/-- What waits for a right-hand side. -/
inductive Waiting where
  | opening
  | operation (op : Operation)
  deriving DecidableEq

/-- The two stacks, their tops first. -/
structure State where
  values : List Quantity := []
  waiting : List Waiting := []
  /-- Whether an operand is due. -/
  due : Bool := true
  deriving DecidableEq

/-- The value of a whole number, which must be in the range of magnitudes. -/
def literal (n : Int) : Except Fault Quantity :=
  match Binary64.ofInt? n with
  | some x => .ok (.ofNumber x)
  | none => .error EvaluateError.literalOutOfRange.fault

variable [Platform]

/-- An operation on two values. A difference negates the right one and adds, a quotient inverts it
and multiplies. -/
def combine (left right : Quantity) : Operation → Except Fault Quantity
  | .add => left.add right
  | .sub => do left.add (← right.neg)
  | .mul => left.mul right
  | .div => do left.mul (← right.inverse)

/-- Replaces the two topmost values by the result of an operation. -/
def apply (op : Operation) : List Quantity → Except Fault (List Quantity)
  | right :: left :: values => do return (← combine left right op) :: values
  | _ => .error ParseError.endOfTokens.fault

/-- Applies the waiting operations of at least the given precedence, up to the first that binds less
tightly or to the nearest open parenthesis. -/
def reduce (least : Nat) (values : List Quantity) :
    List Waiting → Except Fault (List Quantity × List Waiting)
  | .operation op :: waiting =>
    if least ≤ op.precedence then do reduce least (← apply op values) waiting
    else .ok (values, .operation op :: waiting)
  | waiting => .ok (values, waiting)

namespace State

/-- An operand on top of the values. -/
def push (s : State) (q : Quantity) : State := { s with values := q :: s.values, due := false }

/-- A unit, as an operand where one is due and else as a factor of the topmost value. -/
def attach (s : State) (q : Quantity) : Except Fault State :=
  if s.due then .ok (s.push q)
  else match s.values with
    | v :: values => do return { s with values := (← v.mul q) :: values }
    | [] => .error ParseError.endOfTokens.fault

/-- An operator waits for its right-hand side, after those before it that bind as tightly. -/
def operator (s : State) (op : Operation) : Except Fault State := do
  let (values, waiting) ← reduce op.precedence s.values s.waiting
  return { values, waiting := .operation op :: waiting, due := true }

/-- A closing parenthesis meets the nearest open one. -/
def close (s : State) : Except Fault State := do
  match ← reduce 0 s.values s.waiting with
  | (values, .opening :: waiting) => return { values, waiting, due := false }
  | _ => throw (ParseError.leftover .closing 1).fault

/-- Reads a token where an operand is due. -/
def startOperand (s : State) : Token → Except Fault State
  | .integer value _ => do return s.push (← literal value)
  | .decimal value _ => .ok (s.push (.ofNumber value))
  | .opening => .ok { s with waiting := .opening :: s.waiting }
  | token => .error (ParseError.unexpected token).fault

/-- Reads a token after an operand. -/
def afterOperand (s : State) (token : Token) : Except Fault State :=
  match token.operation? with
  | some op => s.operator op
  | none => if token = .closing then s.close else .error (ParseError.unexpected token).fault

/-- Reads a token that is no unit. -/
def step (s : State) (token : Token) : Except Fault State :=
  if s.due then s.startOperand token else s.afterOperand token

/-- The only value, when the tokens end and no parenthesis is open. -/
def finish (s : State) : Except Fault Quantity :=
  if s.due then .error ParseError.endOfTokens.fault
  else do
    match ← reduce 0 s.values s.waiting with
    | ([q], []) => return q
    | _ => throw (ParseError.unclosed none).fault

end State

/-! ## The pass over the tokens -/

/-- Reads tokens in order, a unit together with its power. -/
def run (table : UnitTable) (s : State) : List Token → Except Fault Quantity
  | [] => s.finish
  | .name symbol :: .integer power _ :: rest => do
    run table (← s.attach (← (← table.lookup symbol).pow power)) rest
  | .name symbol :: rest => do run table (← s.attach (← table.lookup symbol)) rest
  | token :: rest => do run table (← s.step token) rest

/-- The value of a list of tokens. -/
def evaluate (table : UnitTable) (tokens : List Token) : Except Fault Quantity :=
  run table {} tokens

end Precedence

end UnitCalc
