import UnitCalc.Datum
import UnitCalc.Quantity.Basic
import UnitCalc.Token.Basic

/-!
# Failures

Why an expression has no value. Each stage of a calculation has its own causes, and `Failure` unites
them.
-/

namespace UnitCalc

/-! ## Causes, by stage -/

/-- Why a list of tokens is no expression. -/
inductive ParseError where
  /-- There are no tokens. -/
  | empty
  /-- The tokens end where an operand is due. -/
  | endOfTokens
  /-- An open parenthesis is followed by a complete operand and then by something else than a
  closing parenthesis, or by nothing. -/
  | unclosed (found : Option Token)
  /-- A token stands where an operand is due, and starts none. -/
  | unexpected (token : Token)
  /-- A token follows a complete expression, with `count` tokens left including it. -/
  | leftover (token : Token) (count : Nat)
  deriving DecidableEq

/-- Why a unit table does not know a symbol, or does not accept a definition. -/
inductive UnitError where
  | unknown (symbol : String)
  | definedTwice (symbol : String)
  | undefinedReference (symbol reference : String)
  deriving DecidableEq

/-- The exponent that a quantity is raised to. -/
inductive Exponent where
  | whole (n : Int)
  | real (x : Binary64)
  deriving DecidableEq

/-- Why an expression cannot be evaluated. -/
inductive EvaluateError where
  /-- A whole literal rounds to no finite number. -/
  | literalOutOfRange
  | unknownUnit (symbol : String)
  | badOperator (operator : String)
  /-- A leaf of the tree is no expression. -/
  | notAnExpression (value : Datum)
  /-- The terms of a sum differ in dimension. -/
  | mismatch (left right : Quantity)
  | sumOutOfRange
  | productOutOfRange
  /-- Zero has no negative power. -/
  | zeroBase (base : Quantity) (exponent : Exponent)
  | powerOutOfRange (base : Quantity) (exponent : Exponent)
  deriving DecidableEq

/-- Why a calculation fails. -/
inductive Failure where
  /-- A character starts no token and continues none. The position counts the characters before
  it. -/
  | lex (character : Char) (text : String) (position : Nat)
  | parse (error : ParseError)
  | unit (error : UnitError)
  | evaluate (error : EvaluateError)
  deriving DecidableEq

/-- The symbol that a unit error is about. -/
def UnitError.symbol : UnitError → String
  | unknown symbol => symbol
  | definedTwice symbol => symbol
  | undefinedReference _ reference => reference

/-! ## Stages and provocations -/

/-- The stages of a calculation, as failures name them. -/
inductive Stage where
  | lex
  | parse
  | unit
  | evaluate
  deriving DecidableEq

def Stage.name : Stage → String
  | lex => "lex"
  | parse => "parse"
  | unit => "unit"
  | evaluate => "evaluate"

namespace Failure

/-- The stage at which a calculation failed. -/
def stage : Failure → Stage
  | lex .. => .lex
  | parse _ => .parse
  | unit _ => .unit
  | evaluate _ => .evaluate

/-- Where in the text the failure is, if it is known. -/
def position? : Failure → Option Nat
  | lex _ _ position => some position
  | _ => none

/-- What a failure was provoked by, where that is something else than the expression itself. -/
inductive Cause where
  | unitError
  | overflow
  | zeroDivision
  deriving DecidableEq

def cause? : Failure → Option Cause
  | evaluate (.unknownUnit _) => some .unitError
  | evaluate .literalOutOfRange => some .overflow
  | evaluate (.powerOutOfRange ..) => some .overflow
  | evaluate (.zeroBase ..) => some .zeroDivision
  | _ => none

end Failure

end UnitCalc
