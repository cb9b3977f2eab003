import UnitCalc.Binary64.Basic
import UnitCalc.Binary64.Platform
import UnitCalc.Binary64.Power
import UnitCalc.Calculator
import UnitCalc.Command.Arguments
import UnitCalc.Command.Output
import UnitCalc.Datum
import UnitCalc.Decimal.Basic
import UnitCalc.Decimal.Shortest
import UnitCalc.Decimal.Significant
import UnitCalc.Dimension
import UnitCalc.Expr.Basic
import UnitCalc.Expr.Descent
import UnitCalc.Expr.Dimension
import UnitCalc.Expr.Evaluation
import UnitCalc.Expr.Grammar
import UnitCalc.Expr.Layout
import UnitCalc.Expr.Parser
import UnitCalc.Expr.Precedence
import UnitCalc.Failure.Basic
import UnitCalc.Failure.Fault
import UnitCalc.Failure.Message
import UnitCalc.Formula
import UnitCalc.Limit
import UnitCalc.Log
import UnitCalc.Machine
import UnitCalc.Main
import UnitCalc.Proofs.Binary64.Finite
import UnitCalc.Proofs.Binary64.Monotone
import UnitCalc.Proofs.Binary64.Range
import UnitCalc.Proofs.Binary64.Rounded
import UnitCalc.Proofs.Binary64.Rounding
import UnitCalc.Proofs.Blanks
import UnitCalc.Proofs.Calculator
import UnitCalc.Proofs.Caret
import UnitCalc.Proofs.Command
import UnitCalc.Proofs.Decimal.Layout
import UnitCalc.Proofs.Decimal.Magnitude
import UnitCalc.Proofs.Decimal.Plain
import UnitCalc.Proofs.Decimal.Shortest
import UnitCalc.Proofs.Dimension
import UnitCalc.Proofs.Except
import UnitCalc.Proofs.Expr.Blame
import UnitCalc.Proofs.Expr.Descent
import UnitCalc.Proofs.Expr.Dimension
import UnitCalc.Proofs.Expr.Exponent
import UnitCalc.Proofs.Expr.Faults
import UnitCalc.Proofs.Expr.Layout
import UnitCalc.Proofs.Expr.Misfit
import UnitCalc.Proofs.Expr.Origin
import UnitCalc.Proofs.Expr.Precedence
import UnitCalc.Proofs.Expr.Proper
import UnitCalc.Proofs.Expr.Read
import UnitCalc.Proofs.Expr.Recognition
import UnitCalc.Proofs.Finite
import UnitCalc.Proofs.Formatted
import UnitCalc.Proofs.Formula
import UnitCalc.Proofs.Quantity.Faults
import UnitCalc.Proofs.Quantity.Finite
import UnitCalc.Proofs.Quantity.Outcomes
import UnitCalc.Proofs.Quantity.Printed
import UnitCalc.Proofs.Quantity.Rendering
import UnitCalc.Proofs.Reread
import UnitCalc.Proofs.Session
import UnitCalc.Proofs.Token.Legality
import UnitCalc.Proofs.Token.Lexeme
import UnitCalc.Proofs.Token.Lossless
import UnitCalc.Proofs.Token.Reading
import UnitCalc.Proofs.UnitTable.Definitions
import UnitCalc.Proofs.UnitTable.Estimate
import UnitCalc.Proofs.UnitTable.Extension
import UnitCalc.Proofs.UnitTable.Order
import UnitCalc.Quantity.Arithmetic
import UnitCalc.Quantity.Basic
import UnitCalc.Quantity.Format
import UnitCalc.Service
import UnitCalc.Service.Address
import UnitCalc.Service.Basic
import UnitCalc.Service.Body
import UnitCalc.Session
import UnitCalc.Settings
import UnitCalc.Text.Blank
import UnitCalc.Text.Capital
import UnitCalc.Text.DecimalDigit
import UnitCalc.Text.Lines
import UnitCalc.Text.Numeral
import UnitCalc.Text.Plain
import UnitCalc.Text.Printable
import UnitCalc.Text.Quoted
import UnitCalc.Token.Basic
import UnitCalc.Token.Canonical
import UnitCalc.Token.Lexer
import UnitCalc.UnitTable.Basic
import UnitCalc.UnitTable.Standard
import UnitCalc.WholePower
import UnitCalc.Worksheet
