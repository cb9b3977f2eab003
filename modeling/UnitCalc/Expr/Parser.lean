import UnitCalc.Expr.Basic
import UnitCalc.Failure.Fault

/-!
# From tokens to expressions

The grammar:

* an expression is a sum: products joined by additive operators, grouped to the left;
* a product: operands joined by multiplicative operators, grouped to the left;
* an operand: a primary followed by any number of units;
* a primary: a number, an expression in parentheses, or a unit;
* a unit: a name, and the integer after it, if there is one, as its power.

`Expr.ofTokens` reads the tokens once, from left to right. What is to the left of the operand being
read is kept as a `Context`: a sum and a product that wait for their right-hand sides, in each of
the parentheses that are open. A token either fits the state or shows at once that no expression
starts with the tokens up to it.
-/

namespace UnitCalc

namespace Parser

/-! ## State -/

/-- What waits for the operand being read, up to the innermost open parenthesis: the left-hand side
of a sum with its operator, and that of a product. -/
structure Context where
  sum : Option (Expr × String) := none
  product : Option (Expr × String) := none
  deriving DecidableEq

/-- The operand being read. -/
inductive Operand where
  /-- None of it has been read. -/
  | due
  /-- It is complete, but more units may follow. -/
  | complete (value : Expr)
  /-- It ends in a unit whose power may follow; `value` is what stands before the unit. -/
  | named (value : Option Expr) (symbol : String)
  deriving DecidableEq

/-- The state of reading. The contexts outside the open parentheses come innermost first. -/
structure State where
  outer : List Context := []
  context : Context := {}
  operand : Operand := .due
  deriving DecidableEq

/-- A value with a unit after it, or the unit alone. -/
def attach (value : Option Expr) (unit : Expr) : Expr :=
  match value with
  | some v => .suffixed v unit
  | none => unit

/-- The operand read so far, unless it is still due. -/
def Operand.value? : Operand → Option Expr
  | due => none
  | complete value => some value
  | named value symbol => some (attach value (.unit symbol))

/-- The left-hand side and the operator that wait for `e`, applied to it. -/
def apply (waiting : Option (Expr × String)) (e : Expr) : Expr :=
  match waiting with
  | some (left, operator) => .binary left operator e
  | none => e

/-- The product that ends with the operand `e`. -/
def Context.closeProduct (c : Context) (e : Expr) : Expr := apply c.product e

/-- The sum that ends with the operand `e`. -/
def Context.close (c : Context) (e : Expr) : Expr := apply c.sum (c.closeProduct e)

/-! ## Steps -/

/-- Reads a token where an operand is due. -/
def State.startOperand (s : State) (token : Token) : Except ParseError State :=
  match token with
  | .integer value _ => .ok { s with operand := .complete (.integer value) }
  | .decimal value _ => .ok { s with operand := .complete (.decimal value) }
  | .name symbol => .ok { s with operand := .named none symbol }
  | .opening => .ok { outer := s.context :: s.outer, context := {}, operand := .due }
  | token => .error (.unexpected token)

/-- Reads a token after the complete operand `e`. The tokens after it are `rest`. -/
def State.afterOperand (s : State) (e : Expr) (token : Token) (rest : List Token) :
    Except ParseError State :=
  match token with
  | .name symbol => .ok { s with operand := .named (some e) symbol }
  | .additive operator =>
    .ok { s with context := ⟨some (s.context.close e, operator), none⟩, operand := .due }
  | .multiplicative operator =>
    .ok { s with
      context := { s.context with product := some (s.context.closeProduct e, operator) }
      operand := .due }
  | token =>
    match token, s.outer with
    | .closing, context :: outer =>
      .ok { outer, context, operand := .complete (s.context.close e) }
    | token, [] => .error (.leftover token (rest.length + 1))
    | token, _ :: _ => .error (.unclosed (some token))

/-- Reads one token. The tokens after it are `rest`. -/
def State.step (s : State) (token : Token) (rest : List Token) : Except ParseError State :=
  match s.operand, token with
  | .due, token => s.startOperand token
  | .complete value, token => s.afterOperand value token rest
  | .named value symbol, .integer power _ =>
    .ok { s with operand := .complete (attach value (.unitPower symbol power)) }
  | .named value symbol, token => s.afterOperand (attach value (.unit symbol)) token rest

/-- Reads tokens in order. -/
def run (s : State) : List Token → Except ParseError State
  | [] => .ok s
  | token :: rest => do run (← s.step token rest) rest

/-- The expression read when the tokens end. -/
def State.finish (s : State) : Except ParseError Expr :=
  match s.operand.value?, s.outer with
  | none, _ => .error .endOfTokens
  | some e, [] => .ok (s.context.close e)
  | some _, _ :: _ => .error (.unclosed none)

end Parser

namespace Expr

/-- The expression that a list of tokens is, or the reason why it is none. -/
def ofTokens (tokens : List Token) : Except ParseError Expr :=
  if tokens = [] then .error .empty else do (← Parser.run {} tokens).finish

/-- The expression that a list of tokens is. -/
def parse (tokens : List Token) : Except Fault Expr :=
  match ofTokens tokens with
  | .ok e => .ok e
  | .error error => .error error.fault

end Expr

end UnitCalc
