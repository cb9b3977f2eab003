import UnitCalc.Expr.Basic
import UnitCalc.Token.Basic

/-!
# The grammar of expressions

`Derives category tokens e` says that a list of tokens is an expression of a category, with `e` as
its tree. Sums and products group to the left, parentheses leave no trace in the tree, and an
integer after a name is the power of the unit.

This is what `Expr.ofTokens` recognises; nothing here is run.
-/

namespace UnitCalc

/-- The categories of expressions, from the loosest to the tightest. -/
inductive Category where
  | sum
  | product
  | operand
  | primary
  deriving DecidableEq

/-- A list of tokens is a unit. -/
inductive DerivesUnit : List Token → Expr → Prop where
  | plain (symbol : String) : DerivesUnit [.name symbol] (.unit symbol)
  | power (symbol : String) (power : Int) (spelling : String) :
      DerivesUnit [.name symbol, .integer power spelling] (.unitPower symbol power)

/-- A list of tokens is an expression of a category. -/
inductive Derives : Category → List Token → Expr → Prop where
  | integer (value : Int) (spelling : String) :
      Derives .primary [.integer value spelling] (.integer value)
  | decimal (value : Binary64) (spelling : String) :
      Derives .primary [.decimal value spelling] (.decimal value)
  | unit {tokens : List Token} {u : Expr} : DerivesUnit tokens u → Derives .primary tokens u
  | parentheses {tokens : List Token} {e : Expr} :
      Derives .sum tokens e → Derives .primary (.opening :: tokens ++ [.closing]) e
  | ofPrimary {tokens : List Token} {e : Expr} :
      Derives .primary tokens e → Derives .operand tokens e
  | suffixed {tokens unitTokens : List Token} {e u : Expr} :
      Derives .operand tokens e → DerivesUnit unitTokens u →
      Derives .operand (tokens ++ unitTokens) (.suffixed e u)
  | ofOperand {tokens : List Token} {e : Expr} :
      Derives .operand tokens e → Derives .product tokens e
  | product {left right : List Token} {l r : Expr} (operator : String) :
      Derives .product left l → Derives .operand right r →
      Derives .product (left ++ .multiplicative operator :: right) (.binary l operator r)
  | ofProduct {tokens : List Token} {e : Expr} :
      Derives .product tokens e → Derives .sum tokens e
  | sum {left right : List Token} {l r : Expr} (operator : String) :
      Derives .sum left l → Derives .product right r →
      Derives .sum (left ++ .additive operator :: right) (.binary l operator r)

namespace Derives

/-- No expression is empty. -/
theorem ne_nil {category : Category} {tokens : List Token} {e : Expr}
    (h : Derives category tokens e) : tokens ≠ [] := by
  induction h with
  | integer | decimal | parentheses => simp
  | unit hu => cases hu <;> simp
  | ofPrimary _ ih | ofOperand _ ih | ofProduct _ ih => exact ih
  | suffixed _ _ ih => simp [ih]
  | product | sum => simp

end Derives

end UnitCalc
