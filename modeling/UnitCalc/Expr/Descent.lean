import UnitCalc.Failure.Basic
import UnitCalc.Expr.Basic

/-!
# Reading by recursive descent

Another way from tokens to expressions: one procedure for each category of the grammar, which reads
an expression of that category from the front of the tokens and hands back the tokens behind it.
Every procedure that reads at least one token says so in its type, so that the recursion ends.

The procedure for units checks for itself that it starts at a name. `Stop.noName` is what it reports
otherwise, though it is only ever called at one.

Nothing here is run: `Expr.ofTokens` is compared with it.
-/

namespace UnitCalc

namespace Descent

/-- Why reading stops before the end of the expression. -/
inductive Stop where
  | error (error : ParseError)
  /-- A unit is due, and no name stands there. -/
  | noName
  deriving DecidableEq

/-- An expression and the tokens behind it, which are fewer than `bound`. -/
structure Part (bound : Nat) where
  expr : Expr
  rest : List Token
  length_lt : rest.length < bound

/-- What is fewer than a number is fewer than any larger one. -/
def Part.mono {m n : Nat} (p : Part m) (h : m ≤ n) : Part n :=
  ⟨p.expr, p.rest, Nat.lt_of_lt_of_le p.length_lt h⟩

/-- A name, and the integer behind it, if there is one, as its power. -/
def unit : (tokens : List Token) → Except Stop (Part tokens.length)
  | .name symbol :: .integer power _ :: rest =>
    .ok ⟨.unitPower symbol power, rest, Nat.lt_succ_of_lt (Nat.lt_succ_self _)⟩
  | .name symbol :: rest => .ok ⟨.unit symbol, rest, Nat.lt_succ_self _⟩
  | _ => .error .noName

/-- The units behind a value. -/
def units (value : Expr) (tokens : List Token) : Except Stop (Part (tokens.length + 1)) :=
  match tokens with
  | .name symbol :: rest => do
    let u ← unit (.name symbol :: rest)
    let p ← units (.suffixed value u.expr) u.rest
    return p.mono (by have := u.length_lt; grind)
  | tokens => .ok ⟨value, tokens, by grind⟩
termination_by tokens.length
decreasing_by exact u.length_lt

mutual

/-- A number, an expression in parentheses, or a unit. -/
def primary (tokens : List Token) : Except Stop (Part tokens.length) :=
  match tokens with
  | [] => .error (.error .endOfTokens)
  | .integer value _ :: rest => .ok ⟨.integer value, rest, by grind⟩
  | .decimal value _ :: rest => .ok ⟨.decimal value, rest, by grind⟩
  | .opening :: rest => do
    let p ← sum rest
    match hp : p.rest with
    | .closing :: behind => .ok ⟨p.expr, behind, by have := p.length_lt; grind⟩
    | token :: _ => .error (.error (.unclosed (some token)))
    | [] => .error (.error (.unclosed none))
  | .name symbol :: rest => unit (.name symbol :: rest)
  | token :: _ => .error (.error (.unexpected token))
termination_by (tokens.length, 0)

/-- A primary and the units behind it. -/
def operand (tokens : List Token) : Except Stop (Part tokens.length) := do
  let p ← primary tokens
  let q ← units p.expr p.rest
  return q.mono p.length_lt
termination_by (tokens.length, 1)

/-- The operators and operands behind the beginning of a product. -/
def factors (left : Expr) (tokens : List Token) : Except Stop (Part (tokens.length + 1)) :=
  match tokens with
  | .multiplicative operator :: rest => do
    let p ← operand rest
    let q ← factors (.binary left operator p.expr) p.rest
    return q.mono (by have := p.length_lt; grind)
  | tokens => .ok ⟨left, tokens, by grind⟩
termination_by (tokens.length, 2)
decreasing_by
  · decreasing_tactic
  · have := p.length_lt
    simp only [Prod.lex_def, List.length_cons]
    omega

/-- Operands joined by multiplicative operators. -/
def product (tokens : List Token) : Except Stop (Part tokens.length) := do
  let p ← operand tokens
  let q ← factors p.expr p.rest
  return q.mono p.length_lt
termination_by (tokens.length, 3)
decreasing_by
  · decreasing_tactic
  · have := p.length_lt
    simp only [Prod.lex_def]
    omega

/-- The operators and products behind the beginning of a sum. -/
def terms (left : Expr) (tokens : List Token) : Except Stop (Part (tokens.length + 1)) :=
  match tokens with
  | .additive operator :: rest => do
    let p ← product rest
    let q ← terms (.binary left operator p.expr) p.rest
    return q.mono (by have := p.length_lt; grind)
  | tokens => .ok ⟨left, tokens, by grind⟩
termination_by (tokens.length, 4)
decreasing_by
  · decreasing_tactic
  · have := p.length_lt
    simp only [Prod.lex_def, List.length_cons]
    omega

/-- Products joined by additive operators. -/
def sum (tokens : List Token) : Except Stop (Part tokens.length) := do
  let p ← product tokens
  let q ← terms p.expr p.rest
  return q.mono p.length_lt
termination_by (tokens.length, 5)
decreasing_by
  · decreasing_tactic
  · have := p.length_lt
    simp only [Prod.lex_def]
    omega

end

/-- The expression that a list of tokens is. -/
def ofTokens (tokens : List Token) : Except Stop Expr :=
  if tokens = [] then .error (.error .empty)
  else do
    let p ← sum tokens
    match p.rest with
    | [] => return p.expr
    | token :: rest => throw (.error (.leftover token (rest.length + 1)))

end Descent

end UnitCalc
