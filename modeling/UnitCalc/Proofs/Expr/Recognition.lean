import UnitCalc.Expr.Grammar
import UnitCalc.Expr.Parser
import UnitCalc.Proofs.Except

/-!
# What is read as an expression

`Expr.ofTokens` gives the tree `e` for a list of tokens exactly if the grammar derives `e` from it.

Soundness goes through `Reads tokens s`, which says how the tokens read so far are cut by the state
they lead to: open parentheses, waiting left-hand sides, and the operand being read. Each part is
already derived from the grammar, so that closing a part is one rule of it. Completeness is an
induction on the derivation, with the state before it and the tokens after it left open: an operand
is read without touching what waits, a product without touching the waiting sum.
-/

namespace UnitCalc

namespace Parser

variable {us vs ws tokens rest : List Token} {token : Token} {s t : State} {c : Context} {e : Expr}

/-! ## The tokens behind a state -/

/-- Tokens that lead to an operand. -/
inductive ReadsOperand : List Token → Operand → Prop where
  | due : ReadsOperand [] .due
  | complete {tokens : List Token} {e : Expr} :
      Derives .operand tokens e → ReadsOperand tokens (.complete e)
  | unit (symbol : String) : ReadsOperand [.name symbol] (.named none symbol)
  | suffix {tokens : List Token} {e : Expr} (symbol : String) :
      Derives .operand tokens e → ReadsOperand (tokens ++ [.name symbol]) (.named (some e) symbol)

/-- Tokens that lead to a waiting left-hand side of a category. -/
inductive ReadsWaiting (category : Category) (operatorToken : String → Token) :
    List Token → Option (Expr × String) → Prop where
  | nothing : ReadsWaiting category operatorToken [] none
  | left {tokens : List Token} {e : Expr} (operator : String) : Derives category tokens e →
      ReadsWaiting category operatorToken (tokens ++ [operatorToken operator]) (some (e, operator))

/-- Tokens that lead to a context. -/
inductive ReadsContext : List Token → Context → Prop where
  | mk {us vs : List Token} {c : Context} : ReadsWaiting .sum .additive us c.sum →
      ReadsWaiting .product .multiplicative vs c.product → ReadsContext (us ++ vs) c

/-- Tokens that lead to open parentheses with their contexts. -/
inductive ReadsOuter : List Token → List Context → Prop where
  | nil : ReadsOuter [] []
  | cons {us vs : List Token} {c : Context} {outer : List Context} : ReadsOuter us outer →
      ReadsContext vs c → ReadsOuter (us ++ vs ++ [.opening]) (c :: outer)

/-- Tokens that lead to a state. -/
inductive Reads : List Token → State → Prop where
  | mk {us vs ws : List Token} {s : State} : ReadsOuter us s.outer → ReadsContext vs s.context →
      ReadsOperand ws s.operand → Reads (us ++ vs ++ ws) s

theorem ReadsContext.empty : ReadsContext [] {} :=
  show ReadsContext ([] ++ []) {} from .mk .nothing .nothing

theorem Reads.initial : Reads [] {} :=
  show Reads ([] ++ [] ++ []) {} from .mk .nil .empty .due

/-! ### Closing what has been read -/

theorem ReadsOperand.derives {operand : Operand} (h : ReadsOperand ws operand)
    (he : operand.value? = some e) : Derives .operand ws e := by
  cases h with
  | due => simp [Operand.value?] at he
  | complete hd =>
    cases he
    exact hd
  | unit symbol =>
    cases he
    exact .ofPrimary (.unit (.plain symbol))
  | suffix symbol hd =>
    cases he
    exact .suffixed hd (.plain symbol)

theorem ReadsWaiting.derives_product {waiting : Option (Expr × String)}
    (h : ReadsWaiting .product .multiplicative vs waiting) (hd : Derives .operand ws e) :
    Derives .product (vs ++ ws) (apply waiting e) := by
  cases h with
  | nothing => exact .ofOperand hd
  | left operator hl =>
    rw [List.append_assoc]
    exact .product operator hl hd

theorem ReadsWaiting.derives_sum {waiting : Option (Expr × String)}
    (h : ReadsWaiting .sum .additive vs waiting) (hd : Derives .product ws e) :
    Derives .sum (vs ++ ws) (apply waiting e) := by
  cases h with
  | nothing => exact .ofProduct hd
  | left operator hl =>
    rw [List.append_assoc]
    exact .sum operator hl hd

theorem ReadsContext.derives (h : ReadsContext vs c) (hd : Derives .operand ws e) :
    Derives .sum (vs ++ ws) (c.close e) := by
  obtain ⟨hs, hp⟩ := h
  rw [List.append_assoc]
  exact hs.derives_sum (hp.derives_product hd)

/-! ## Soundness -/

/-- A token read where an operand is due. -/
theorem Reads.startOperand (ho : ReadsOuter us s.outer) (hc : ReadsContext vs s.context)
    (h : s.startOperand token = .ok t) : Reads (us ++ vs ++ [token]) t := by
  cases token with
  | integer value spelling =>
    cases h
    exact .mk ho hc (.complete (.ofPrimary (.integer value spelling)))
  | decimal value spelling =>
    cases h
    exact .mk ho hc (.complete (.ofPrimary (.decimal value spelling)))
  | name symbol =>
    cases h
    exact .mk ho hc (.unit symbol)
  | opening =>
    cases h
    rw [← List.append_nil (us ++ vs ++ [Token.opening]), ← List.append_nil (us ++ vs ++ [_])]
    exact .mk (.cons ho hc) .empty .due
  | additive | multiplicative | closing => cases h

/-- A token read after a complete operand. -/
theorem Reads.afterOperand (rest : List Token) (ho : ReadsOuter us s.outer)
    (hc : ReadsContext vs s.context) (hd : Derives .operand ws e)
    (h : s.afterOperand e token rest = .ok t) :
    Reads (us ++ vs ++ (ws ++ [token])) t := by
  cases token with
  | name symbol =>
    cases h
    exact .mk ho hc (.suffix symbol hd)
  | additive operator =>
    cases h
    have hw : ReadsContext (vs ++ ws ++ [.additive operator] ++ [])
        ⟨some (s.context.close e, operator), none⟩ :=
      .mk (.left operator (hc.derives hd)) .nothing
    have hr := Reads.mk (s := { s with context := ⟨_, none⟩, operand := .due }) ho hw .due
    simpa only [List.append_assoc, List.append_nil] using hr
  | multiplicative operator =>
    cases h
    obtain ⟨hs, hp⟩ := hc
    have hw : ReadsContext (_ ++ (_ ++ [.multiplicative operator]))
        { s.context with product := some (s.context.closeProduct e, operator) } :=
      .mk hs (.left operator (hp.derives_product hd))
    have hr := Reads.mk
      (s := { s with context := { s.context with product := _ }, operand := .due }) ho hw .due
    simpa only [List.append_assoc, List.append_nil] using hr
  | closing =>
    obtain ⟨outer, context, operand⟩ := s
    cases ho with
    | nil => cases h
    | cons ho hc' =>
      cases h
      -- the sum in the parentheses is the operand of the context outside
      have hp : Derives .operand (.opening :: (vs ++ ws) ++ [.closing]) (context.close e) :=
        .ofPrimary (.parentheses (hc.derives hd))
      have hr := Reads.mk (s := ⟨_, _, .complete _⟩) ho hc' (.complete hp)
      simpa only [List.append_assoc, List.cons_append, List.nil_append] using hr
  | integer | decimal | opening =>
    obtain ⟨outer, context, operand⟩ := s
    cases outer <;> cases h

/-- What a step preserves. -/
theorem Reads.step (hr : Reads tokens s) (h : s.step token rest = .ok t) :
    Reads (tokens ++ [token]) t := by
  obtain ⟨ho, hc, hw⟩ := hr
  obtain ⟨outer, context, operand⟩ := s
  rw [List.append_assoc]
  cases operand with
  | due =>
    cases hw
    exact .startOperand ho hc h
  | complete e => exact .afterOperand rest ho hc (hw.derives rfl) h
  | named value symbol =>
    have hd := hw.derives rfl
    cases token with
    | integer power spelling =>
      -- an integer is taken as the power, so the name alone is no unit here
      cases h
      cases hw with
      | unit =>
        exact .mk ho hc (.complete (.ofPrimary (.unit (.power symbol power spelling))))
      | suffix _ hv =>
        have hd := Derives.suffixed hv (.power symbol power spelling)
        have hr := Reads.mk (s := ⟨outer, context, .complete _⟩) ho hc (.complete hd)
        simpa only [attach, List.append_assoc, List.cons_append, List.nil_append] using hr
    | name | decimal | additive | multiplicative | opening | closing =>
      exact .afterOperand rest ho hc hd h

/-- What a run preserves. -/
theorem Reads.run (hr : Reads us s) (h : run s tokens = .ok t) : Reads (us ++ tokens) t := by
  induction tokens generalizing us s with
  | nil =>
    cases h
    rwa [List.append_nil]
  | cons token rest ih =>
    obtain ⟨s', hs, h⟩ := bind_eq_ok_iff.mp h
    have := ih (hr.step hs) h
    rwa [List.append_assoc] at this

theorem Reads.finish (hr : Reads tokens s) (h : s.finish = .ok e) : Derives .sum tokens e := by
  obtain ⟨ho, hc, hw⟩ := hr
  obtain ⟨outer, context, operand⟩ := s
  cases hv : operand.value? with
  | none => simp [State.finish, hv] at h
  | some v =>
    cases ho with
    | nil =>
      simp only [State.finish, hv, Except.ok.injEq] at h
      rw [← h]
      exact hc.derives (hw.derives hv)
    | cons => simp [State.finish, hv] at h

/-! ## Completeness -/

/-- Whether a step is possible does not depend on the tokens after it. -/
theorem step_congr {rest' : List Token} (h : s.step token rest = .ok t) :
    s.step token rest' = .ok t := by
  -- the tokens after it are only counted, in the error for a leftover
  obtain ⟨outer, context, operand⟩ := s
  cases operand with
  | due => exact h
  | complete e => cases token <;> cases outer <;> first | exact h | cases h
  | named value symbol => cases token <;> cases outer <;> first | exact h | cases h

theorem run_cons_of_ok (h : s.step token rest = .ok t) : run s (token :: rest) = run t rest := by
  rw [run, h]
  rfl

theorem run_append_of_ok (h : run s us = .ok t) : run s (us ++ vs) = run t vs := by
  induction us generalizing s with
  | nil =>
    cases h
    rfl
  | cons token us ih =>
    obtain ⟨s', hs, h⟩ := bind_eq_ok_iff.mp h
    rw [List.cons_append, run_cons_of_ok (step_congr hs), ih h]

/-- After an operand, every token but an integer is read the same way. -/
theorem step_of_value? (h : s.operand.value? = some e) (ht : ∀ n w, token ≠ .integer n w) :
    s.step token rest = s.afterOperand e token rest := by
  obtain ⟨outer, context, operand⟩ := s
  cases operand with
  | due => simp [Operand.value?] at h
  | complete v =>
    cases h
    rfl
  | named value symbol =>
    cases h
    cases token with
    | integer n w => exact absurd rfl (ht n w)
    | _ => rfl

/-- How the tokens of a category are read where an operand is due: an operand leaves the context as
it is, a product leaves the waiting sum as it is, and a sum needs an empty context. -/
def RunsTo : Category → List Token → Expr → Prop
  | .primary, tokens, e | .operand, tokens, e =>
    ∀ outer context, ∃ operand, operand.value? = some e ∧
      run ⟨outer, context, .due⟩ tokens = .ok ⟨outer, context, operand⟩
  | .product, tokens, e =>
    ∀ outer sum, ∃ product operand v, operand.value? = some v ∧ apply product v = e ∧
      run ⟨outer, ⟨sum, none⟩, .due⟩ tokens = .ok ⟨outer, ⟨sum, product⟩, operand⟩
  | .sum, tokens, e =>
    ∀ outer, ∃ context operand v, operand.value? = some v ∧ Context.close context v = e ∧
      run ⟨outer, {}, .due⟩ tokens = .ok ⟨outer, context, operand⟩

theorem runsTo_unit (h : DerivesUnit tokens e) : RunsTo .primary tokens e := by
  intro outer context
  cases h with
  | plain symbol => exact ⟨.named none symbol, rfl, rfl⟩
  | power symbol power spelling => exact ⟨.complete (.unitPower symbol power), rfl, rfl⟩

theorem runsTo_parentheses (h : RunsTo .sum tokens e) :
    RunsTo .primary (.opening :: tokens ++ [.closing]) e := by
  intro outer context
  -- in the parentheses the context starts empty, while the one outside waits
  obtain ⟨inner, operand, v, hv, he, hr⟩ := h (context :: outer)
  refine ⟨.complete e, rfl, ?_⟩
  have ho : State.step ⟨outer, context, .due⟩ .opening (tokens ++ [.closing])
      = .ok ⟨context :: outer, {}, .due⟩ := rfl
  rw [List.cons_append, run_cons_of_ok ho, run_append_of_ok hr, run, step_of_value? hv (by simp),
    ← he]
  rfl

theorem runsTo_suffixed {u : Expr} (h : RunsTo .operand us e) (hu : DerivesUnit vs u) :
    RunsTo .operand (us ++ vs) (.suffixed e u) := by
  intro outer context
  obtain ⟨operand, hv, hr⟩ := h outer context
  cases hu with
  | plain symbol =>
    refine ⟨.named (some e) symbol, rfl, ?_⟩
    rw [run_append_of_ok hr, run, step_of_value? hv (by simp)]
    rfl
  | power symbol power spelling =>
    refine ⟨.complete (.suffixed e (.unitPower symbol power)), rfl, ?_⟩
    rw [run_append_of_ok hr, run, step_of_value? hv (by simp)]
    rfl

theorem runsTo_product {l r : Expr} (operator : String) (hl : RunsTo .product us l)
    (hr : RunsTo .operand vs r) :
    RunsTo .product (us ++ .multiplicative operator :: vs) (.binary l operator r) := by
  intro outer sum
  obtain ⟨product, operand, v, hv, rfl, hus⟩ := hl outer sum
  obtain ⟨operand', hv', hvs⟩ := hr outer ⟨sum, some (apply product v, operator)⟩
  refine ⟨some (apply product v, operator), operand', r, hv', rfl, ?_⟩
  rw [run_append_of_ok hus, run, step_of_value? hv (by simp)]
  exact hvs

theorem runsTo_sum {l r : Expr} (operator : String) (hl : RunsTo .sum us l)
    (hr : RunsTo .product vs r) :
    RunsTo .sum (us ++ .additive operator :: vs) (.binary l operator r) := by
  intro outer
  obtain ⟨context, operand, v, hv, rfl, hus⟩ := hl outer
  obtain ⟨product, operand', v', hv', rfl, hvs⟩ := hr outer (some (context.close v, operator))
  refine ⟨⟨some (context.close v, operator), product⟩, operand', v', hv', rfl, ?_⟩
  rw [run_append_of_ok hus, run, step_of_value? hv (by simp)]
  exact hvs

theorem runsTo_of_derives {category : Category} (h : Derives category tokens e) :
    RunsTo category tokens e := by
  induction h with
  | integer value spelling => exact fun outer context ↦ ⟨.complete (.integer value), rfl, rfl⟩
  | decimal value spelling => exact fun outer context ↦ ⟨.complete (.decimal value), rfl, rfl⟩
  | unit hu => exact runsTo_unit hu
  | parentheses _ ih => exact runsTo_parentheses ih
  | ofPrimary _ ih => exact ih
  | suffixed _ hu ih => exact runsTo_suffixed ih hu
  | ofOperand _ ih =>
    -- a single operand leaves no product waiting
    intro outer sum
    obtain ⟨operand, hv, hr⟩ := ih outer ⟨sum, none⟩
    exact ⟨none, operand, _, hv, rfl, hr⟩
  | product operator _ _ ihl ihr => exact runsTo_product operator ihl ihr
  | ofProduct _ ih =>
    intro outer
    obtain ⟨product, operand, v, hv, he, hr⟩ := ih outer none
    exact ⟨⟨none, product⟩, operand, v, hv, he, hr⟩
  | sum operator _ _ ihl ihr => exact runsTo_sum operator ihl ihr

/-- The tokens of an expression are read to the end. -/
theorem finish_of_derives (h : Derives .sum tokens e) :
    ∃ t, run {} tokens = .ok t ∧ t.finish = .ok e := by
  obtain ⟨context, operand, v, hv, he, hr⟩ := runsTo_of_derives h []
  refine ⟨_, hr, ?_⟩
  simp only [State.finish, hv, he]

/-- The grammar and the reader agree on every list of tokens. -/
theorem ofTokens_eq_ok_iff : Expr.ofTokens tokens = .ok e ↔ Derives .sum tokens e := by
  constructor
  · intro h
    unfold Expr.ofTokens at h
    split at h
    · cases h
    · obtain ⟨s, hr, h⟩ := bind_eq_ok_iff.mp h
      exact (Reads.initial.run hr).finish h
  · intro h
    obtain ⟨s, hr, hs⟩ := finish_of_derives h
    rw [Expr.ofTokens, if_neg h.ne_nil, hr]
    exact hs

end Parser

end UnitCalc
