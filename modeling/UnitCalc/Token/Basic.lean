import UnitCalc.Decimal.Shortest
import UnitCalc.Limit
import UnitCalc.Text.Numeral

/-!
# Tokens

The words of an expression. Numbers keep the spelling they had in the text, so that the tokens of a
text spell out all of it except the blanks.
-/

namespace UnitCalc

/-- A word of an expression. The spelling of a number may be empty if it comes from no text. -/
inductive Token where
  | name (symbol : String)
  | integer (value : Int) (spelling : String)
  | decimal (value : Binary64) (spelling : String)
  | additive (operator : String)
  | multiplicative (operator : String)
  | opening
  | closing
  deriving DecidableEq

namespace Token

/-- The token as text: its spelling, or its value if it has none. -/
def text : Token → String
  | name symbol => symbol
  | integer value spelling => if spelling = "" then toString value else spelling
  | decimal value spelling => if spelling = "" then value.shortestText else spelling
  | additive operator => operator
  | multiplicative operator => operator
  | opening => "("
  | closing => ")"

/-- Whether the text stays within the limits of written numbers. -/
def isWritable : Token → Bool
  | integer value spelling => spelling != "" || Text.isWritable value
  | _ => true

/-- The texts of tokens with a separator between them. -/
def join (separator : String) (tokens : List Token) : String :=
  separator.intercalate (tokens.map text)

/-- The joined texts, if they may be written. -/
def join? (separator : String) (tokens : List Token) : Except Limit String :=
  if tokens.all isWritable then .ok (join separator tokens) else .error .tooManyDigits

end Token

end UnitCalc
