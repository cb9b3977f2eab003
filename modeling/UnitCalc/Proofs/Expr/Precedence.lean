import UnitCalc.Expr.Precedence
import UnitCalc.Proofs.Binary64.Rounded
import UnitCalc.Proofs.Expr.Misfit
import UnitCalc.UnitTable.Standard

/-!
# One pass instead of a tree

`Precedence.evaluate` gives for every expression what evaluation over its tree gives: the same
quantity, or the same fault. The proof is an induction on the derivation of the tokens, with the two
stacks and the tokens that follow left open. Reading the tokens of an expression amounts to
evaluating it and pushing its value, *provided* that what waits below binds less tightly and that
what follows applies the operations still waiting in the expression itself. For the latter a level
is enough: `0` for sums, `1` for products and `2` for operands, after which also a unit may follow.

The last operation of a product or sum is only applied when the token after it is read; nothing that
could fail lies in between, so the faults come in the order of the tree.
-/

namespace UnitCalc

namespace Precedence

variable {table : UnitTable} {tokens us vs rest : List Token} {token : Token} {e l r u : Expr}
  {op : Operation} {s : State} {waiting : List Waiting} {values : List Quantity} {p q : Quantity}
  {m n : Nat}

/-! ## Levels -/

/-- Every operation on top of the waiting ones binds less tightly than the level. -/
def Below (level : Nat) (waiting : List Waiting) : Prop :=
  ∀ op, waiting.head? = some (.operation op) → op.precedence < level

/-- The tokens may follow an expression of the level. -/
def Follows (level : Nat) (rest : List Token) : Prop :=
  ∀ token ∈ rest.head?, token = .closing ∨
    (∃ op, token.operation? = some op ∧ op.precedence ≤ level) ∨
    (2 ≤ level ∧ ∃ symbol, token = .name symbol)

theorem Below.mono (h : Below n waiting) (hnm : n ≤ m) : Below m waiting := by
  intro op hop
  exact (h op hop).trans_le hnm

theorem Follows.mono (h : Follows n rest) (hnm : n ≤ m) : Follows m rest := by
  intro token htoken
  rcases h token htoken with hc | ⟨op, hop, hp⟩ | ⟨htwo, hname⟩
  · exact .inl hc
  · exact .inr (.inl ⟨op, hop, hp.trans hnm⟩)
  · exact .inr (.inr ⟨htwo.trans hnm, hname⟩)

theorem Follows.nil : Follows n [] := by
  intro token htoken
  cases htoken

theorem below_opening : Below n (.opening :: waiting) := by
  intro op hop
  cases hop

theorem below_nil : Below n [] := by
  intro op hop
  cases hop

theorem precedence_le_one (op : Operation) : op.precedence ≤ 1 := by
  cases op <;> decide

/-! ## Steps -/

theorem ne_name_of_operation? (h : token.operation? = some op) (symbol : String) :
    token ≠ .name symbol := by
  rintro rfl
  cases h

section

variable [Platform]

theorem combine_eq_run : combine p q op = op.run p q := by
  cases op <;> rfl

/-- Nothing is applied where everything binds less tightly. -/
theorem reduce_of_below (h : Below n waiting) :
    reduce n values waiting = .ok (values, waiting) := by
  match waiting with
  | [] => rfl
  | .opening :: waiting => rfl
  | .operation op :: waiting =>
    have hlt := h op rfl
    rw [reduce, if_neg (by omega)]

/-- An operation that binds tightly enough is applied first. -/
theorem reduce_operation (h : n ≤ op.precedence) :
    reduce n (q :: p :: values) (.operation op :: waiting)
      = op.run p q >>= fun v ↦ reduce n (v :: values) waiting := by
  rw [reduce, if_pos h, apply, combine_eq_run]
  cases op.run p q <;> rfl

theorem literal_eq_evaluate (n : Int) : literal n = (Expr.integer n).evaluate table := by
  rw [Expr.evaluate_integer]
  unfold literal
  cases Binary64.ofInt? n <;> rfl

/-- Every token but a name is read on its own. -/
theorem run_cons (h : ∀ symbol, token ≠ .name symbol) :
    run table s (token :: rest) = s.step token >>= fun s' ↦ run table s' rest := by
  rw [run]
  · intro symbol power spelling us hname
    exact absurd hname (h symbol)
  · intro symbol hname
    exact absurd hname (h symbol)

theorem run_of_operation? (h : token.operation? = some op) :
    run table ⟨values, waiting, false⟩ (token :: rest)
      = State.operator ⟨values, waiting, false⟩ op >>= fun s ↦ run table s rest := by
  rw [run_cons (ne_name_of_operation? h), State.step, if_neg Bool.false_ne_true,
    State.afterOperand, h]

/-- A closing parenthesis is read after an operand. -/
theorem run_closing : run table ⟨values, waiting, false⟩ (.closing :: rest)
    = State.close ⟨values, waiting, false⟩ >>= fun s ↦ run table s rest := by
  rw [run_cons (by simp)]
  rfl

/-- The tokens of a unit are read as one. -/
theorem run_unit (hu : DerivesUnit us u) (hrest : Follows 2 rest) :
    run table s (us ++ rest)
      = u.evaluate table >>= fun q ↦ s.attach q >>= fun s' ↦ run table s' rest := by
  cases hu with
  | power symbol power spelling =>
    rw [List.cons_append, List.singleton_append, Expr.evaluate_unitPower, run, bind_assoc]
  | plain symbol =>
    rw [List.singleton_append, Expr.evaluate_unit, run]
    -- the next token is no power
    rintro power spelling us rfl
    rcases hrest _ rfl with ⟨⟨⟩⟩ | ⟨op, ⟨⟩, -⟩ | ⟨-, symbol, ⟨⟩⟩

/-- An operation that is applied first takes its place in what is done with the stacks. -/
theorem reduce_operation_bind {α : Type} (h : n ≤ op.precedence)
    (k : List Quantity × List Waiting → Except Fault α) :
    reduce n (q :: p :: values) (.operation op :: waiting) >>= k
      = op.run p q >>= fun v ↦ reduce n (v :: values) waiting >>= k := by
  rw [reduce_operation h, bind_assoc]

/-- Whatever may follow an operation applies it first. -/
theorem run_operation (h : Follows op.precedence rest) :
    run table ⟨q :: p :: values, .operation op :: waiting, false⟩ rest
      = op.run p q >>= fun v ↦ run table ⟨v :: values, waiting, false⟩ rest := by
  match rest with
  | [] => exact reduce_operation_bind (Nat.zero_le _) _
  | token :: us =>
    rcases h token rfl with rfl | ⟨op', hop', hle⟩ | ⟨htwo, -⟩
    · rw [run_closing, State.close, reduce_operation_bind (Nat.zero_le _), bind_assoc]
      refine congrArg _ (funext fun v ↦ ?_)
      rw [run_closing, State.close]
    · simp only [run_of_operation? hop', State.operator, reduce_operation_bind hle, bind_assoc]
    · have := precedence_le_one op
      omega

/-! ## Expressions -/

/-- Reading the tokens of an expression amounts to pushing its value. -/
def RunsTo (table : UnitTable) (level : Nat) (tokens : List Token) (e : Expr) : Prop :=
  ∀ values waiting rest, Below level waiting → Follows level rest →
    run table ⟨values, waiting, true⟩ (tokens ++ rest)
      = e.evaluate table >>= fun q ↦ run table ⟨q :: values, waiting, false⟩ rest

theorem RunsTo.mono (h : RunsTo table m tokens e) (hnm : n ≤ m) : RunsTo table n tokens e := by
  intro values waiting rest hw hrest
  exact h values waiting rest (hw.mono hnm) (hrest.mono hnm)

theorem RunsTo.unit (hu : DerivesUnit us u) : RunsTo table 2 us u := by
  intro values waiting rest hw hrest
  rw [run_unit hu hrest]
  rfl

/-- A parenthesis starts a sum of its own, whatever waits outside. -/
theorem RunsTo.parentheses (h : RunsTo table 0 tokens e) :
    RunsTo table 2 (.opening :: tokens ++ [.closing]) e := by
  intro values waiting rest hw hrest
  have hclosing : Follows 0 (.closing :: rest) := by
    rintro token ⟨⟩
    exact .inl rfl
  have hopen : run table ⟨values, waiting, true⟩ (.opening :: (tokens ++ .closing :: rest))
      = run table ⟨values, .opening :: waiting, true⟩ (tokens ++ .closing :: rest) := by
    rw [run_cons (by simp)]
    rfl
  have hclose (q : Quantity) :
      run table ⟨q :: values, .opening :: waiting, false⟩ (.closing :: rest)
        = run table ⟨q :: values, waiting, false⟩ rest := by
    rw [run_closing]
    rfl
  rw [List.cons_append, List.cons_append, List.append_assoc, List.singleton_append, hopen,
    h values _ _ below_opening hclosing]
  simp only [hclose]

/-- A unit after an operand multiplies it at once. -/
theorem RunsTo.suffixed (h : RunsTo table 2 us e) (hu : DerivesUnit vs u) :
    RunsTo table 2 (us ++ vs) (.suffixed e u) := by
  intro values waiting rest hw hrest
  have hname : Follows 2 (vs ++ rest) := by
    cases hu <;> rintro token ⟨⟩ <;> exact .inr (.inr ⟨le_rfl, _, rfl⟩)
  rw [List.append_assoc, h values waiting _ hw hname, Expr.evaluate_suffixed, bind_assoc]
  refine congrArg _ (funext fun p ↦ ?_)
  rw [run_unit hu hrest, bind_assoc]
  refine congrArg _ (funext fun q ↦ ?_)
  have hattach : State.attach ⟨p :: values, waiting, false⟩ q
      = p.mul q >>= fun v ↦ pure ⟨v :: values, waiting, false⟩ := rfl
  rw [hattach, bind_assoc]
  rfl

/-- An operator leaves what waits below as it is, and what follows the right side applies it. -/
theorem RunsTo.binary {operator : String} (htoken : token.operation? = some op)
    (hop : Operation.ofText? operator = some op) (hn : op.precedence = n)
    (hl : RunsTo table n us l) (hr : RunsTo table (n + 1) vs r) :
    RunsTo table n (us ++ token :: vs) (.binary l operator r) := by
  subst hn
  intro values waiting rest hw hrest
  have hfollows : Follows op.precedence (token :: (vs ++ rest)) := by
    rintro token ⟨⟩
    exact .inr (.inl ⟨op, htoken, le_rfl⟩)
  have hbelow : Below (op.precedence + 1) (.operation op :: waiting) := by
    rintro op ⟨⟩
    exact Nat.lt_succ_self _
  have hoperator (p : Quantity) :
      run table ⟨p :: values, waiting, false⟩ (token :: (vs ++ rest))
        = run table ⟨p :: values, .operation op :: waiting, true⟩ (vs ++ rest) := by
    rw [run_of_operation? htoken, State.operator, reduce_of_below hw]
    rfl
  rw [List.append_assoc, List.cons_append, hl values waiting _ hw hfollows, Expr.evaluate_binary,
    hop]
  simp only [hoperator, hr _ _ rest hbelow (hrest.mono (Nat.le_succ _)), run_operation hrest,
    bind_assoc]

end

/-- A token with one of the four operators, if it has an operator at all. -/
def IsProper (token : Token) : Prop :=
  (∀ operator, token = .additive operator → operator = "+" ∨ operator = "-") ∧
    ∀ operator, token = .multiplicative operator → operator = "*" ∨ operator = "/"

theorem IsProper.additive {operator : String} (h : IsProper (.additive operator)) :
    ∃ op, (Token.additive operator).operation? = some op ∧ Operation.ofText? operator = some op ∧
      op.precedence = 0 := by
  rcases h.1 operator rfl with rfl | rfl
  · exact ⟨.add, rfl, rfl, rfl⟩
  · exact ⟨.sub, rfl, rfl, rfl⟩

theorem IsProper.multiplicative {operator : String} (h : IsProper (.multiplicative operator)) :
    ∃ op, (Token.multiplicative operator).operation? = some op ∧
      Operation.ofText? operator = some op ∧ op.precedence = 1 := by
  rcases h.2 operator rfl with rfl | rfl
  · exact ⟨.mul, rfl, rfl, rfl⟩
  · exact ⟨.div, rfl, rfl, rfl⟩

/-- The level of a category. -/
def level : Category → Nat
  | .sum => 0
  | .product => 1
  | .operand | .primary => 2

theorem runsTo_of_derives [Platform] {c : Category} (h : Derives c tokens e)
    (hproper : ∀ token ∈ tokens, IsProper token) : RunsTo table (level c) tokens e := by
  induction h with
  | integer value spelling =>
    intro values waiting rest hw hrest
    rw [List.singleton_append, run_cons (by simp), ← literal_eq_evaluate]
    exact bind_assoc ..
  | decimal value spelling =>
    intro values waiting rest hw hrest
    rw [List.singleton_append, run_cons (by simp)]
    rfl
  | unit hu => exact .unit hu
  | parentheses _ ih =>
    refine (ih fun token htoken ↦ hproper token ?_).parentheses
    simp [htoken]
  | ofPrimary _ ih => exact ih hproper
  | suffixed _ hu ih =>
    exact (ih fun token htoken ↦ hproper token (List.mem_append_left _ htoken)).suffixed hu
  | ofOperand _ ih => exact (ih hproper).mono (by decide)
  | product operator _ _ ihl ihr =>
    rw [List.forall_mem_append, List.forall_mem_cons] at hproper
    obtain ⟨hleft, htoken, hright⟩ := hproper
    obtain ⟨op, hop, htext, hlevel⟩ := htoken.multiplicative
    exact .binary hop htext hlevel (ihl hleft) (ihr hright)
  | ofProduct _ ih => exact (ih hproper).mono (by decide)
  | sum operator _ _ ihl ihr =>
    rw [List.forall_mem_append, List.forall_mem_cons] at hproper
    obtain ⟨hleft, htoken, hright⟩ := hproper
    obtain ⟨op, hop, htext, hlevel⟩ := htoken.additive
    exact .binary hop htext hlevel (ihl hleft) (ihr hright)

/-- Evaluation in one pass by operator precedence and evaluation over the tree give the same
quantity or the same fault. -/
theorem evaluate_eq_of_parse [Platform] (table : UnitTable) (hparse : Expr.parse tokens = .ok e)
    (hadditive : ∀ operator, Token.additive operator ∈ tokens → operator = "+" ∨ operator = "-")
    (hmultiplicative :
      ∀ operator, Token.multiplicative operator ∈ tokens → operator = "*" ∨ operator = "/") :
    evaluate table tokens = e.evaluate table := by
  have hproper : ∀ token ∈ tokens, IsProper token := by
    intro token htoken
    constructor
    · rintro operator rfl
      exact hadditive operator htoken
    · rintro operator rfl
      exact hmultiplicative operator htoken
  have hruns : RunsTo table 0 tokens e :=
    runsTo_of_derives (Parser.parse_eq_ok_iff.mp hparse) hproper
  have hrun := hruns [] [] [] below_nil Follows.nil
  rw [List.append_nil] at hrun
  refine hrun.trans ?_
  cases e.evaluate table <;> rfl

open Rounded in
/-- The tokens of `6 N / 2 m - (1 + 1) Pa m1`. -/
theorem evaluate_eq_of_parse_difference :
    let tokens : List Token := [.integer 6 "6", .name "N", .multiplicative "/", .integer 2 "2",
      .name "m", .additive "-", .opening, .integer 1 "1", .additive "+", .integer 1 "1", .closing,
      .name "Pa", .name "m", .integer 1 "1"]
    let e := Expr.binary
      (.binary (.suffixed (.integer 6) (.unit "N")) "/" (.suffixed (.integer 2) (.unit "m"))) "-"
      (.suffixed (.suffixed (.binary (.integer 1) "+" (.integer 1)) (.unit "Pa"))
        (.unitPower "m" 1))
    Expr.parse tokens = .ok e ∧
      (∀ operator, Token.additive operator ∈ tokens → operator = "+" ∨ operator = "-") ∧
      (∀ operator, Token.multiplicative operator ∈ tokens → operator = "*" ∨ operator = "/") ∧
      evaluate .standard tokens = e.evaluate .standard ∧
      e.evaluate .standard = .ok ⟨.one false, .ofList [0, -2, 0, 0, 0, 0, 1]⟩ := by
  intro tokens e
  have hparse : Expr.parse tokens = .ok e := by decide
  have hadditive :
      ∀ operator, Token.additive operator ∈ tokens → operator = "+" ∨ operator = "-" := by
    intro operator h
    simpa [tokens, or_comm] using h
  have hmultiplicative :
      ∀ operator, Token.multiplicative operator ∈ tokens → operator = "*" ∨ operator = "/" := by
    intro operator h
    simp only [tokens, List.mem_cons, reduceCtorEq, Token.multiplicative.injEq, List.not_mem_nil,
      false_or, or_false] at h
    exact .inr h
  exact ⟨hparse, hadditive, hmultiplicative,
    evaluate_eq_of_parse .standard hparse hadditive hmultiplicative, by decide +kernel⟩

end Precedence

end UnitCalc
