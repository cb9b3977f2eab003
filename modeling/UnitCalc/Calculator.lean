import UnitCalc.Expr.Evaluation
import UnitCalc.Expr.Parser
import UnitCalc.Quantity.Format
import UnitCalc.Token.Lexer
import UnitCalc.UnitTable.Standard

/-!
# Calculating the value of a text

The stages in order: tokens, expression, quantity. The first stage that fails decides.
-/

namespace UnitCalc

/-- The expression that a text denotes. -/
def Expr.read (text : String) : Except Fault Expr := do Expr.parse (← Token.lex text)

variable [Platform]

/-- The quantity that a text denotes over a unit table. -/
def UnitTable.calculate (table : UnitTable) (text : String) : Except Fault Quantity := do
  (← Expr.read text).evaluate table

/-- The quantity that a text denotes over the standard units. -/
def calculate (text : String) : Except Fault Quantity := UnitTable.standard.calculate text

/-- The formatted quantity that a text denotes over the standard units. -/
def calculateFormatted (settings : Settings) (precision : Option Int) (text : String) :
    Except Fault String := do
  ((← calculate text).formatWith settings precision).mapError .limit

end UnitCalc
