import UnitCalc.Expr.Descent
import UnitCalc.Proofs.Expr.Recognition

/-!
# Descent and state

`Expr.ofTokens` reads the tokens with a state for what is to the left of the operand being read;
`Descent.ofTokens` calls a procedure for each category. Both give the same expression or the same
error for every list of tokens, and the procedure for units is never called where no name stands.

`Continues` compares one procedure with the state machine: reading on with the state from where the
procedure starts is calling it first and then reading on from where it stops. A procedure stops at a
token that its category cannot go on with, and there the state may as well have forgotten the
left-hand sides that waited: they are applied to what has been read (`readOn_closeProduct`,
`readOn_closeSum`).
-/

namespace UnitCalc

namespace Descent

open UnitCalc.Parser (State Context Operand)

variable {b c : Nat} {ts rest : List Token} {token : Token} {s : State} {outer : List Context}
  {context : Context} {waiting : Option (Expr × String)} {e l : Expr} {operator : String}
  {category : Category} {m : Except Stop (Part b)} {next : Expr → List Token → Except Stop Expr}

/-! ## Reading on -/

/-- What reading from a state to the end of the tokens gives. -/
def readOn (s : State) (tokens : List Token) : Except Stop Expr :=
  (Parser.run s tokens >>= State.finish).mapError .error

/-- What reading on gives where the operand `e` has just been read. -/
def readBehind (outer : List Context) (context : Context) (e : Expr) (tokens : List Token) :
    Except Stop Expr :=
  readOn ⟨outer, context, .complete e⟩ tokens

theorem readOn_cons (s : State) (token : Token) (rest : List Token) :
    readOn s (token :: rest) =
      (s.step token rest).mapError .error >>= fun t ↦ readOn t rest := by
  unfold readOn
  rw [Parser.run]
  cases s.step token rest <;> rfl

theorem readOn_of_step {t : State} (h : s.step token rest = .ok t) :
    readOn s (token :: rest) = readOn t rest := by
  rw [readOn_cons, h]
  rfl

theorem readOn_of_step_error {error : ParseError} (h : s.step token rest = .error error) :
    readOn s (token :: rest) = .error (.error error) := by
  rw [readOn_cons, h]
  rfl

/-- Whether an expression of a category goes on with a token. -/
def GoesOn : Category → Token → Prop
  | .operand, .name _ => True
  | .product, .name _ | .product, .multiplicative _ => True
  | .sum, .name _ | .sum, .multiplicative _ | .sum, .additive _ => True
  | _, _ => False

/-- Whether an expression of a category cannot go on with the first of the tokens. -/
def Ends (category : Category) (tokens : List Token) : Prop :=
  ∀ token ∈ tokens.head?, ¬GoesOn category token

theorem Ends.not_goesOn (h : Ends category (token :: rest)) : ¬GoesOn category token :=
  h token rfl

/-- What ends an operand and is no multiplicative operator ends a product. -/
theorem Ends.product (h : Ends .operand ts)
    (hm : ∀ operator rest, ts = .multiplicative operator :: rest → False) : Ends .product ts := by
  match ts with
  | [] => exact nofun
  | token :: rest =>
    rintro _ ⟨⟩ hg
    cases token with
    | name symbol => exact h.not_goesOn trivial
    | multiplicative operator => exact hm operator rest rfl
    | _ => exact hg

/-- What ends a product and is no additive operator ends a sum. -/
theorem Ends.sum (h : Ends .product ts)
    (ha : ∀ operator rest, ts = .additive operator :: rest → False) : Ends .sum ts := by
  match ts with
  | [] => exact nofun
  | token :: rest =>
    rintro _ ⟨⟩ hg
    cases token with
    | additive operator => exact ha operator rest rfl
    | _ => exact h.not_goesOn hg

/-- A product that waits is applied to the operand if no unit follows. -/
theorem readOn_closeProduct (h : Ends .operand ts) :
    readBehind outer ⟨waiting, some (l, operator)⟩ e ts =
      readBehind outer ⟨waiting, none⟩ (.binary l operator e) ts := by
  match ts with
  | [] => cases outer <;> rfl
  | token :: rest =>
    unfold readBehind
    rw [readOn_cons, readOn_cons]
    cases token with
    | name symbol => exact absurd trivial h.not_goesOn
    | _ => cases outer <;> rfl

/-- A sum that waits is applied to the product if neither a unit nor a factor follows. -/
theorem readOn_closeSum (h : Ends .product ts) :
    readBehind outer ⟨some (l, operator), none⟩ e ts =
      readBehind outer {} (.binary l operator e) ts := by
  match ts with
  | [] => cases outer <;> rfl
  | token :: rest =>
    unfold readBehind
    rw [readOn_cons, readOn_cons]
    cases token with
    | name symbol => exact absurd trivial h.not_goesOn
    | multiplicative operator' => exact absurd trivial h.not_goesOn
    | _ => cases outer <;> rfl

/-! ## One procedure and the state -/

/-- Reading on gives `whole`, and so does a procedure of a category followed by reading on. -/
structure Continues (category : Category) (m : Except Stop (Part b)) (whole : Except Stop Expr)
    (next : Expr → List Token → Except Stop Expr) : Prop where
  eq : whole = m >>= fun p ↦ next p.expr p.rest
  ends : ∀ p, m = .ok p → Ends category p.rest

variable {whole : Except Stop Expr} {middle : Expr → List Token → Except Stop Expr}

theorem Continues.error {stop : Stop} (h : whole = .error stop) :
    Continues category (.error stop : Except Stop (Part b)) whole next :=
  ⟨h, nofun⟩

theorem Continues.ok {p : Part b} (h : whole = next p.expr p.rest) (he : Ends category p.rest) :
    Continues category (.ok p) whole next :=
  ⟨h, by rintro _ ⟨⟩; exact he⟩

/-- Two procedures, one after the other. -/
theorem Continues.bind {category' : Category} {k : Part b → Except Stop (Part c)}
    (h : Continues category' m whole middle)
    (hk : ∀ p, m = .ok p → Ends category' p.rest →
      Continues category (k p) (middle p.expr p.rest) next) :
    Continues category (m >>= k) whole next := by
  match m with
  | .error stop => exact .error h.eq
  | .ok p =>
    rw [h.eq]
    exact hk p rfl (h.ends p rfl)

/-- The bound on the tokens that are left says nothing about the reading. -/
theorem Continues.mono {f : Part b → Part c}
    (hf : ∀ p, (f p).expr = p.expr ∧ (f p).rest = p.rest) (h : Continues category m whole next) :
    Continues category (m >>= fun p ↦ pure (f p)) whole next := by
  match m with
  | .error stop => exact .error h.eq
  | .ok p =>
    refine .ok ?_ ?_
    · rw [(hf p).1, (hf p).2]
      exact h.eq
    · rw [(hf p).2]
      exact h.ends p rfl

/-! ## The procedures -/

/-- A name and its power are read as one unit, behind a value or alone. -/
theorem continues_unit (value : Option Expr) (symbol : String) (rest : List Token) :
    Continues .primary (unit (.name symbol :: rest))
      (readOn ⟨outer, context, .named value symbol⟩ rest)
      (fun u ts ↦ readBehind outer context (Parser.attach value u) ts) := by
  match rest with
  | [] => exact .ok (by cases outer <;> rfl) (fun _ _ ↦ id)
  | token :: rest =>
    cases token with
    | integer power spelling => exact .ok (readOn_of_step rfl) (fun _ _ ↦ id)
    | _ =>
      -- no power follows, so the name alone is the unit
      refine .ok ?_ (fun _ _ ↦ id)
      show readOn _ _ = readOn _ _
      rw [readOn_cons, readOn_cons]
      rfl

theorem continues_units (value : Expr) (ts : List Token) :
    Continues .operand (units value ts) (readBehind outer context value ts)
      (readBehind outer context) := by
  induction value, ts using units.induct with
  | case1 value symbol rest ih =>
    rw [units, show readBehind outer context value (.name symbol :: rest)
      = readOn ⟨outer, context, .named (some value) symbol⟩ rest from readOn_of_step rfl]
    exact (continues_unit (some value) symbol rest).bind
      fun u _ _ ↦ (ih u).mono fun _ ↦ ⟨rfl, rfl⟩
  | case2 value ts h =>
    rw [units.eq_2 value ts h]
    refine .ok rfl ?_
    intro token ht hg
    match ts, token with
    | .name symbol :: rest, _ => exact h symbol rest rfl

/-- What `primary` and `operand` give on the tokens, in any context. -/
def OperandContinues (category : Category) (m : Except Stop (Part b)) (ts : List Token) : Prop :=
  ∀ outer context, Continues category m (readOn ⟨outer, context, .due⟩ ts)
    (readBehind outer context)

/-- What `product` gives on the tokens, whichever sum waits. -/
def ProductContinues (ts : List Token) : Prop :=
  ∀ outer waiting, Continues .product (product ts) (readOn ⟨outer, ⟨waiting, none⟩, .due⟩ ts)
    (readBehind outer ⟨waiting, none⟩)

/-- What `factors` gives on the tokens, whichever sum waits. -/
def FactorsContinue (left : Expr) (ts : List Token) : Prop :=
  Ends .operand ts → ∀ outer waiting,
    Continues .product (factors left ts) (readBehind outer ⟨waiting, none⟩ left ts)
      (readBehind outer ⟨waiting, none⟩)

/-- What `terms` gives on the tokens. -/
def TermsContinue (left : Expr) (ts : List Token) : Prop :=
  Ends .product ts → ∀ outer,
    Continues .sum (terms left ts) (readBehind outer {} left ts) (readBehind outer {})

/-- What `sum` gives on the tokens. -/
def SumContinues (ts : List Token) : Prop :=
  ∀ outer, Continues .sum (sum ts) (readOn ⟨outer, {}, .due⟩ ts) (readBehind outer {})

/-- An expression in parentheses is read with nothing waiting, and its end brings back what waited
outside. -/
theorem primary_continues_of_sum (h : SumContinues rest) :
    OperandContinues .primary (primary (.opening :: rest)) (.opening :: rest) := by
  intro outer context
  rw [primary, show readOn ⟨outer, context, .due⟩ (.opening :: rest)
    = readOn ⟨context :: outer, {}, .due⟩ rest from readOn_of_step rfl]
  refine (h (context :: outer)).bind ?_
  rintro ⟨e, behind, hlt⟩ - hends
  rcases behind with _ | ⟨token, behind⟩
  · exact .error rfl
  · cases token with
    | closing => exact .ok (readOn_of_step rfl) (fun _ _ ↦ id)
    | name symbol | multiplicative operator | additive operator =>
      exact absurd trivial hends.not_goesOn
    | _ => exact .error (readOn_of_step_error rfl)

theorem operand_continues_of_primary (h : OperandContinues .primary (primary ts) ts) :
    OperandContinues .operand (operand ts) ts := by
  intro outer context
  rw [operand]
  exact (h outer context).bind
    fun p _ _ ↦ (continues_units p.expr p.rest).mono fun _ ↦ ⟨rfl, rfl⟩

theorem factors_continue_of_operand (h : OperandContinues .operand (operand rest) rest)
    (ih : ∀ p : Part rest.length, FactorsContinue (.binary l operator p.expr) p.rest) :
    FactorsContinue l (.multiplicative operator :: rest) := by
  intro _ outer waiting
  rw [factors, show readBehind outer ⟨waiting, none⟩ l (.multiplicative operator :: rest)
    = readOn ⟨outer, ⟨waiting, some (l, operator)⟩, .due⟩ rest from readOn_of_step rfl]
  refine (h outer ⟨waiting, some (l, operator)⟩).bind fun p _ hp ↦ ?_
  rw [readOn_closeProduct hp]
  exact (ih p hp outer waiting).mono fun _ ↦ ⟨rfl, rfl⟩

theorem product_continues_of_operand (h : OperandContinues .operand (operand ts) ts)
    (hf : ∀ p : Part ts.length, FactorsContinue p.expr p.rest) : ProductContinues ts := by
  intro outer waiting
  rw [product]
  exact (h outer ⟨waiting, none⟩).bind
    fun p _ hp ↦ (hf p hp outer waiting).mono fun _ ↦ ⟨rfl, rfl⟩

theorem terms_continue_of_product (h : ProductContinues rest)
    (ih : ∀ p : Part rest.length, TermsContinue (.binary l operator p.expr) p.rest) :
    TermsContinue l (.additive operator :: rest) := by
  intro _ outer
  rw [terms, show readBehind outer {} l (.additive operator :: rest)
    = readOn ⟨outer, ⟨some (l, operator), none⟩, .due⟩ rest from readOn_of_step rfl]
  refine (h outer (some (l, operator))).bind fun p _ hp ↦ ?_
  rw [readOn_closeSum hp]
  exact (ih p hp outer).mono fun _ ↦ ⟨rfl, rfl⟩

theorem sum_continues_of_product (h : ProductContinues ts)
    (ht : ∀ p : Part ts.length, TermsContinue p.expr p.rest) : SumContinues ts := by
  intro outer
  rw [sum]
  exact (h outer none).bind fun p _ hp ↦ (ht p hp outer).mono fun _ ↦ ⟨rfl, rfl⟩

/-- The procedures call each other on shorter and shorter tokens. -/
theorem sum_continues (ts : List Token) : SumContinues ts := by
  apply sum.induct (fun ts ↦ OperandContinues .primary (primary ts) ts) SumContinues TermsContinue
    ProductContinues FactorsContinue (fun ts ↦ OperandContinues .operand (operand ts) ts)
  case case1 =>
    intro outer context
    rw [primary]
    exact .error rfl
  case case2 | case3 =>
    intro value spelling rest outer context
    rw [primary]
    exact .ok (readOn_of_step rfl) (fun _ _ ↦ id)
  case case4 => exact fun _ ↦ primary_continues_of_sum
  case case5 =>
    intro symbol rest outer context
    rw [primary, readOn_of_step rfl]
    exact continues_unit none symbol rest
  case case6 =>
    intro token rest hi hd ho hn outer context
    rw [primary.eq_6 token rest hi hd ho hn]
    refine .error (readOn_of_step_error ?_)
    cases token with
    | integer value spelling => exact (hi value spelling rfl).elim
    | decimal value spelling => exact (hd value spelling rfl).elim
    | opening => exact (ho rfl).elim
    | name symbol => exact (hn symbol rfl).elim
    | _ => rfl
  case case7 => exact fun _ ↦ sum_continues_of_product
  case case8 => exact fun _ _ _ ↦ terms_continue_of_product
  case case9 =>
    intro left ts h hends outer
    rw [terms.eq_2 left ts h]
    exact .ok rfl (hends.sum h)
  case case10 => exact fun _ ↦ product_continues_of_operand
  case case11 => exact fun _ _ _ ↦ factors_continue_of_operand
  case case12 =>
    intro left ts h hends outer waiting
    rw [factors.eq_2 left ts h]
    exact .ok rfl (hends.product h)
  case case13 => exact fun _ ↦ operand_continues_of_primary

/-- A token behind the end of a sum is left over, unless a parenthesis is open. -/
theorem readBehind_of_ends (h : Ends .sum (token :: rest)) :
    readBehind [] {} e (token :: rest) =
      .error (.error (.leftover token (rest.length + 1))) := by
  cases token with
  | name symbol | multiplicative operator | additive operator =>
    exact absurd trivial h.not_goesOn
  | _ => exact readOn_of_step_error rfl

/-- Both ways of reading agree on every list of tokens. -/
theorem ofTokens_eq (ts : List Token) : ofTokens ts = (Expr.ofTokens ts).mapError .error := by
  unfold ofTokens Expr.ofTokens
  split
  · rfl
  · change _ = readOn {} ts
    obtain ⟨heq, hends⟩ := sum_continues ts []
    rw [heq]
    match hm : sum ts with
    | .error stop => rfl
    | .ok ⟨e, [], _⟩ => rfl
    | .ok ⟨e, token :: rest, _⟩ => exact (readBehind_of_ends (hends _ hm)).symm

theorem ofTokens_ne_noName (ts : List Token) : ofTokens ts ≠ .error .noName := by
  rw [ofTokens_eq]
  rcases Expr.ofTokens ts with error | e
  · exact nofun
  · exact nofun

end Descent

end UnitCalc
