import UnitCalc.Decimal.Shortest
import UnitCalc.Text.Numeral
import UnitCalc.Text.Quoted

/-!
# Plain data

Values that are neither quantities nor dimensions, where an operation has to say what it was given.
-/

namespace UnitCalc

/-- A value of no unit. -/
inductive Datum where
  | integer (n : Int)
  | real (x : Binary64)
  | boolean (b : Bool)
  | text (s : String)
  | null
  deriving DecidableEq

namespace Datum

/-- The value as it is shown in messages. -/
def display : Datum → String
  | integer n => toString n
  | real x => x.shortestText
  | boolean b => if b then "True" else "False"
  | text s => Text.quoted s
  | null => "None"

/-- Whether the value may be shown. -/
def isWritable : Datum → Bool
  | integer n => Text.isWritable n
  | _ => true

/-- The kind of value, as it is named in messages. -/
def kind : Datum → String
  | integer _ => "int"
  | real _ => "float"
  | boolean _ => "bool"
  | text _ => "str"
  | null => "NoneType"

end Datum

end UnitCalc
