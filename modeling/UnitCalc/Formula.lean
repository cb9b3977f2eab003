import UnitCalc.Calculator
import UnitCalc.Expr.Grammar
import UnitCalc.Expr.Layout

/-!
# Formulas of plain numbers

A formula is a text of numbers, operations and parentheses, without units. Its value is found by
ordinary arithmetic on binary64 numbers, in which sums, differences and products are rounded once.
An `Arithmetic` says how the literals with a point and the quotients are rounded: once as well
(`Arithmetic.nearest`), or step by step (`Arithmetic.stepwise`), where a literal is added up digit
by digit and a quotient is the product with the power of exponent minus one, which is the
platform's.

Formulas are read from characters, without the tokens and the trees of expressions.

Nothing here is run: it is what `calculate` is compared with on such texts.
-/

namespace UnitCalc

/-! ## Arithmetics -/

/-- How literals with a point and quotients are rounded. -/
structure Arithmetic where
  /-- The number for the digits before and after the point. -/
  literal : List Char → List Char → Binary64
  quotient : Binary64 → Binary64 → Binary64

namespace Arithmetic

/-- Literals and quotients are rounded once. -/
def nearest : Arithmetic where
  literal whole fraction := .ofRatio (Literal.whole (whole ++ fraction)) (10 ^ fraction.length)
  quotient x y := x / y

/-- The power with exponent minus one. For magnitudes other than one it is the platform's, and it
has the sign of the number. -/
def reciprocal [Platform] : Binary64 → Binary64
  | .nan => .nan
  | .infinite s => .zero s
  | .finite s a =>
    if a.val = Binary64.oneRank then .one s
    else
      let power := Platform.pow (.finite false a) (.one true)
      if s then -power else power

/-- Literals are added up digit by digit, and dividing is multiplying by the reciprocal. -/
def stepwise [Platform] : Arithmetic where
  literal := Literal.decimal
  quotient x y := x * reciprocal y

/-- The operation on numbers. -/
def run (a : Arithmetic) : Operation → Binary64 → Binary64 → Binary64
  | .add, x, y => x + y
  | .sub, x, y => x - y
  | .mul, x, y => x * y
  | .div, x, y => a.quotient x y

end Arithmetic

/-! ## Formulas -/

/-- A formula, with its literals as they are written. -/
inductive Formula where
  | integer (digits : List Char)
  | decimal (whole fraction : List Char)
  | binary (left : Formula) (operation : Operation) (right : Formula)

namespace Formula

def value (a : Arithmetic) : Formula → Binary64
  | integer digits => .ofRatio (Literal.whole digits) 1
  | decimal whole fraction => a.literal whole fraction
  | binary left operation right => a.run operation (left.value a) (right.value a)

/-- Whether the values of all parts are finite and no divisor is zero. -/
def isRegular (a : Arithmetic) : Formula → Bool
  | integer digits => (value a (integer digits)).isFinite
  | decimal whole fraction => (value a (decimal whole fraction)).isFinite
  | binary left operation right =>
    left.isRegular a && right.isRegular a
      && !(operation == .div && (right.value a).sameNumber (.zero false))
      && (value a (binary left operation right)).isFinite

/-- Characters are read as a formula. Products bind tighter than sums, and both group to the left.
-/
inductive Reads : Category → List Char → Formula → Prop where
  | integer {digits : List Char} : Token.IsDigits digits → Reads .primary digits (.integer digits)
  | decimal {whole fraction : List Char} :
      Token.IsDigits whole → (∀ c ∈ fraction, c.isDigit = true) →
      Reads .primary (whole ++ '.' :: fraction) (.decimal whole fraction)
  | parentheses {cs : List Char} {f : Formula} :
      Reads .sum cs f → Reads .primary ('(' :: cs ++ [')']) f
  | ofPrimary {cs : List Char} {f : Formula} : Reads .primary cs f → Reads .operand cs f
  | ofOperand {cs : List Char} {f : Formula} : Reads .operand cs f → Reads .product cs f
  | product {left right : List Char} {l r : Formula} {op : Operation} : op.isAdditive = false →
      Reads .product left l → Reads .operand right r →
      Reads .product (left ++ op.text.toList ++ right) (.binary l op r)
  | ofProduct {cs : List Char} {f : Formula} : Reads .product cs f → Reads .sum cs f
  | sum {left right : List Char} {l r : Formula} {op : Operation} : op.isAdditive = true →
      Reads .sum left l → Reads .product right r →
      Reads .sum (left ++ op.text.toList ++ right) (.binary l op r)

end Formula

/-! ## Texts of formulas -/

/-- The characters that formulas are made of. -/
def Formula.isFormulaChar (c : Char) : Bool :=
  c.isDigit || ['.', '+', '-', '*', '/', '(', ')'].contains c

/-- A text of digits, points, operators, parentheses and blanks. -/
def Formula.isFormulaText (text : String) : Bool :=
  (Text.withoutBlanks text.toList).all isFormulaChar

/-- What is calculated for a text is the value of its formula, where the formula is regular. -/
def Arithmetic.Predicts [Platform] (a : Arithmetic) (text : String) : Prop :=
  ∀ f, Formula.Reads .sum (Text.withoutBlanks text.toList) f → f.isRegular a = true →
    calculate text = .ok (.ofNumber (f.value a))

end UnitCalc
