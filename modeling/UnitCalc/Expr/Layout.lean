import UnitCalc.Expr.Evaluation
import UnitCalc.Token.Canonical

/-!
# Expressions as they are written

A `Layout` is a tree as a person writes it: numbers and names in letters and digits, the operations
between their operands, and as many further pairs of parentheses around a node as one likes.
`Layout.text` adds the parentheses that the tree needs, and `Layout.expr` forgets all of them. The
trees that can be written so are `Expr.IsPlain`.

Nothing here is run.
-/

namespace UnitCalc

/-! ## Leaves -/

/-- A unit as it is written: letters, and the digits of a power or none. -/
structure UnitLayout where
  letters : List Char
  ne_nil : letters ≠ []
  isNameChar : ∀ c ∈ letters, isNameChar c = true
  power : Option Nat

namespace UnitLayout

def text (u : UnitLayout) : List Char :=
  match u.power with
  | some k => u.letters ++ Nat.toDigits 10 k
  | none => u.letters

def expr (u : UnitLayout) : Expr :=
  match u.power with
  | some k => .unitPower (.ofList u.letters) k
  | none => .unit (.ofList u.letters)

end UnitLayout

/-- A number with a point as it is written, within the range of the literals. -/
structure DecimalLayout where
  whole : List Char
  fraction : List Char
  isDigits : Token.IsDigits whole
  isDigit : ∀ c ∈ fraction, c.isDigit = true
  whole_lt : Literal.whole whole < Binary64.overflowThreshold
  length_le : fraction.length ≤ 308

namespace DecimalLayout

def text (d : DecimalLayout) : List Char := d.whole ++ '.' :: d.fraction

def expr (d : DecimalLayout) : Expr := .decimal (Literal.decimal d.whole d.fraction)

end DecimalLayout

/-! ## Trees -/

namespace Operation

/-- The operator of an operation. -/
def text : Operation → String
  | add => "+"
  | sub => "-"
  | mul => "*"
  | div => "/"

/-- Whether an operation binds as loosely as a sum. -/
def isAdditive : Operation → Bool
  | add | sub => true
  | mul | div => false

end Operation

/-- A tree as it is written. -/
inductive Layout where
  | integer (value : Nat)
  | decimal (number : DecimalLayout)
  | unit (unit : UnitLayout)
  | suffixed (value : Layout) (unit : UnitLayout)
  | binary (left : Layout) (operation : Operation) (right : Layout)
  /-- A further pair of parentheses. -/
  | parenthesized (inner : Layout)

namespace Layout

/-- The tree that is written. -/
def expr : Layout → Expr
  | integer n => .integer n
  | decimal d => d.expr
  | unit u => u.expr
  | suffixed v u => .suffixed v.expr u.expr
  | binary l op r => .binary l.expr op.text r.expr
  | parenthesized w => w.expr

/-! ## Parentheses that are needed -/

def isSum : Layout → Bool
  | binary _ op _ => op.isAdditive
  | _ => false

def isProduct : Layout → Bool
  | binary _ op _ => !op.isAdditive
  | _ => false

/-- Whether a value needs parentheses before a unit: an operation would end too late, and a name
would run into the name of the unit. -/
def needsBeforeUnit : Layout → Bool
  | unit u => u.power.isNone
  | suffixed _ u => u.power.isNone
  | binary .. => true
  | _ => false

/-- Whether an operand needs parentheses on the left of an operator. -/
def needsLeftOf (op : Operation) (w : Layout) : Bool := !op.isAdditive && w.isSum

/-- Whether an operand needs parentheses on the right of an operator. -/
def needsRightOf (op : Operation) (w : Layout) : Bool :=
  w.isSum || !op.isAdditive && w.isProduct

end Layout

/-- A list between an opening and a closing one, if that is needed. -/
def enclosedIf {α : Type} (needed : Bool) (opening closing : α) (xs : List α) : List α :=
  if needed then opening :: xs ++ [closing] else xs

/-- The characters of a tree as it is written, without blanks. -/
def Layout.text : Layout → List Char
  | integer n => Nat.toDigits 10 n
  | decimal d => d.text
  | unit u => u.text
  | suffixed v u => enclosedIf v.needsBeforeUnit '(' ')' v.text ++ u.text
  | binary l op r =>
    enclosedIf (l.needsLeftOf op) '(' ')' l.text ++ op.text.toList
      ++ enclosedIf (r.needsRightOf op) '(' ')' r.text
  | parenthesized w => '(' :: w.text ++ [')']

/-! ## Plain trees -/

/-- A tree of natural numbers, of values of literals, of units whose powers are natural numbers and
of the four operations. -/
inductive Expr.IsPlain : Expr → Prop where
  | integer (n : Nat) : IsPlain (.integer n)
  | decimal (d : DecimalLayout) : IsPlain d.expr
  | unit (u : UnitLayout) : IsPlain u.expr
  | suffixed {v : Expr} (u : UnitLayout) : IsPlain v → IsPlain (.suffixed v u.expr)
  | binary {l r : Expr} (op : Operation) : IsPlain l → IsPlain r → IsPlain (.binary l op.text r)

end UnitCalc
