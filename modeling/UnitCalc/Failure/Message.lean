import UnitCalc.Failure.Basic
import UnitCalc.Text.Quoted

/-!
# The wording of failures

Every message that a failure is reported with.
-/

namespace UnitCalc

def ParseError.message : ParseError → String
  | empty => "empty expression"
  | endOfTokens => "unexpected end of expression"
  | unclosed none => "expected ')' but found end of expression"
  | unclosed (some token) => "expected ')' but found " ++ Text.quoted token.text
  | unexpected token => "unexpected token " ++ Text.quoted token.text
  | leftover token count => "parser did not consume all tokens: unexpected "
      ++ Text.quoted token.text ++ " (" ++ toString count ++ " token(s) left)"

def UnitError.message : UnitError → String
  | unknown symbol => "Unknown unit symbol '" ++ symbol ++ "'"
  | definedTwice symbol => "Unit symbol '" ++ symbol ++ "' defined twice"
  | undefinedReference symbol reference =>
    "Unit '" ++ symbol ++ "' refers to '" ++ reference ++ "' before it is defined"

def Exponent.text : Exponent → String
  | whole n => toString n
  | real x => x.shortestText

def EvaluateError.message : EvaluateError → String
  | literalOutOfRange => "numeric literal is out of range"
  | unknownUnit symbol => (UnitError.unknown symbol).message
  | badOperator operator => "bad operator " ++ Text.quoted operator
  | notAnExpression value => "cannot evaluate node " ++ value.display
  | mismatch left right =>
    "cannot add " ++ left.text ++ " and " ++ right.text ++ ": dimensions differ"
  | sumOutOfRange => "overflow evaluating '+': magnitude out of range"
  | productOutOfRange => "overflow evaluating '*': magnitude out of range"
  | zeroBase base exponent =>
    "cannot raise zero quantity " ++ base.text ++ " to power " ++ exponent.text
  | powerOutOfRange base exponent =>
    "overflow raising " ++ base.text ++ " to power " ++ exponent.text

namespace Failure

def message : Failure → String
  | lex character _ _ => "Unexpected character " ++ Text.quoted (String.singleton character)
  | parse error => error.message
  | unit error => error.message
  | evaluate error => error.message

@[simp] theorem message_lex (c : Char) (text : String) (position : Nat) :
    (lex c text position).message =
      "Unexpected character " ++ Text.quoted (String.singleton c) := rfl

/-- The message, followed by the text and a caret below the position if there is one. -/
def rendered (failure : Failure) : String :=
  match failure with
  | lex _ text position =>
    failure.message ++ "\n" ++ text ++ "\n" ++ String.ofList (List.replicate position ' ') ++ "^"
  | _ => failure.message

end Failure

end UnitCalc
