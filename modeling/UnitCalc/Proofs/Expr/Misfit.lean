import Mathlib.Data.Set.Subsingleton
import UnitCalc.Proofs.Expr.Recognition

/-!
# The first token that fits no expression

Every state of the reader can still be led to an expression, so the reader stops exactly at the
first token with which the tokens are no beginning of an expression any more, the *first misfit*.
Its error names that token. This settles all outcomes of `Expr.parse`: a tree where the grammar
gives one, and otherwise a parse error, unless the misfit is too long to be written into one.
-/

namespace UnitCalc

namespace Parser

variable {us vs tokens rest : List Token} {token : Token} {s t : State} {e : Expr}

/-! ## Beginnings of expressions -/

/-- Whether a list of tokens is the beginning of an expression. -/
def IsViable (tokens : List Token) : Prop := ∃ rest e, Derives .sum (tokens ++ rest) e

/-- The first of the tokens with which they are no beginning of an expression any more. -/
def FirstMisfit (tokens : List Token) (token : Token) : Prop :=
  ∃ before after, tokens = before ++ token :: after ∧ IsViable before ∧
    ¬IsViable (before ++ [token])

theorem exists_run_of_append (h : run s (us ++ vs) = .ok t) :
    ∃ s', run s us = .ok s' ∧ run s' vs = .ok t := by
  induction us generalizing s with
  | nil => exact ⟨s, rfl, h⟩
  | cons token us ih =>
    rw [List.cons_append, run] at h
    obtain ⟨s', hs, h⟩ := bind_eq_ok_iff.mp h
    obtain ⟨r, hr, ht⟩ := ih h
    exact ⟨r, by rw [run_cons_of_ok (step_congr hs), hr], ht⟩

/-- After an operand, closing all parentheses completes the expression. -/
theorem exists_close (outer : List Context) (context : Context) (operand : Operand)
    (hv : operand.value? = some e) :
    ∃ rest t e', run ⟨outer, context, operand⟩ rest = .ok t ∧ t.finish = .ok e' := by
  induction outer generalizing context operand e with
  | nil => exact ⟨[], _, context.close e, rfl, by simp only [State.finish, hv]⟩
  | cons c outer ih =>
    have hs : State.step ⟨c :: outer, context, operand⟩ .closing []
        = .ok ⟨outer, c, .complete (context.close e)⟩ := by
      rw [step_of_value? hv (by simp)]
      rfl
    obtain ⟨rest, t, e', hr, ht⟩ := ih c (.complete (context.close e)) rfl
    exact ⟨.closing :: rest, t, e', by rw [run_cons_of_ok (step_congr hs), hr], ht⟩

/-- From every state some tokens lead to an expression. -/
theorem exists_completion (s : State) :
    ∃ rest t e, run s rest = .ok t ∧ t.finish = .ok e := by
  obtain ⟨outer, context, operand⟩ := s
  cases hv : operand.value? with
  | some v => exact exists_close outer context operand hv
  | none =>
    cases operand with
    | due =>
      -- any number will do where an operand is due
      obtain ⟨rest, t, e, hr, ht⟩ :=
        exists_close outer context (.complete (.integer 0)) rfl
      have hs : State.step ⟨outer, context, .due⟩ (.integer 0 "0") rest
          = .ok ⟨outer, context, .complete (.integer 0)⟩ := rfl
      exact ⟨.integer 0 "0" :: rest, t, e, by rw [run_cons_of_ok hs, hr], ht⟩
    | complete | named => cases hv

theorem isViable_iff : IsViable tokens ↔ ∃ s, run {} tokens = .ok s := by
  constructor
  · rintro ⟨rest, e, h⟩
    obtain ⟨t, hr, -⟩ := finish_of_derives h
    obtain ⟨s, hs, -⟩ := exists_run_of_append hr
    exact ⟨s, hs⟩
  · rintro ⟨s, hs⟩
    obtain ⟨rest, t, e, hr, ht⟩ := exists_completion s
    rw [← run_append_of_ok hs] at hr
    exact ⟨rest, e, (Reads.initial.run hr).finish ht⟩

/-! ## The token that an error names -/

/-- An error of a step can be written exactly if its token can. -/
theorem isWritable_of_step {error : ParseError} (h : s.step token rest = .error error) :
    error.isWritable = token.isWritable := by
  obtain ⟨outer, context, operand⟩ := s
  cases operand with
  | due => cases token <;> cases h <;> rfl
  | complete | named => cases token <;> cases outer <;> cases h <;> rfl

theorem exists_step_of_run {error : ParseError} (h : run s tokens = .error error) :
    ∃ before token after t, tokens = before ++ token :: after ∧ run s before = .ok t ∧
      t.step token after = .error error := by
  induction tokens generalizing s with
  | nil => cases h
  | cons token rest ih =>
    rcases bind_eq_error_iff.mp h with hs | ⟨s', hs, h⟩
    · exact ⟨[], token, rest, s, rfl, rfl, hs⟩
    · obtain ⟨before, token', after, t, rfl, hb, ht⟩ := ih h
      exact ⟨token :: before, token', after, t, rfl, by rw [run_cons_of_ok (step_congr hs), hb], ht⟩

theorem firstMisfit_iff : FirstMisfit tokens token ↔ ∃ before after s error,
    tokens = before ++ token :: after ∧ run {} before = .ok s ∧
      s.step token after = .error error := by
  constructor
  · rintro ⟨before, after, rfl, hb, hn⟩
    obtain ⟨s, hs⟩ := isViable_iff.mp hb
    cases ht : s.step token after with
    | error error => exact ⟨before, after, s, error, rfl, hs, ht⟩
    | ok t =>
      refine absurd (isViable_iff.mpr ⟨t, ?_⟩) hn
      rw [run_append_of_ok hs, run_cons_of_ok (step_congr ht)]
      rfl
  · rintro ⟨before, after, s, error, rfl, hs, he⟩
    refine ⟨before, after, rfl, isViable_iff.mpr ⟨s, hs⟩, fun hn ↦ ?_⟩
    -- a step that fails before these tokens fails before any others
    obtain ⟨t, ht⟩ := isViable_iff.mp hn
    rw [run_append_of_ok hs] at ht
    obtain ⟨s', hst, -⟩ := bind_eq_ok_iff.mp ht
    rw [step_congr hst] at he
    cases he

/-- An expression is refused with an error that cannot be written exactly if its first misfit cannot
be written. -/
theorem exists_not_isWritable_iff :
    (∃ error, Expr.ofTokens tokens = .error error ∧ error.isWritable = false) ↔
      ∃ token, FirstMisfit tokens token ∧ token.isWritable = false := by
  constructor
  · rintro ⟨error, h, hw⟩
    unfold Expr.ofTokens at h
    split at h
    · cases h
      cases hw
    rcases bind_eq_error_iff.mp h with hr | ⟨s, -, hs⟩
    · obtain ⟨before, token, after, s, rfl, hb, hs⟩ := exists_step_of_run hr
      rw [isWritable_of_step hs] at hw
      exact ⟨token, firstMisfit_iff.mpr ⟨before, after, s, error, rfl, hb, hs⟩, hw⟩
    · -- the errors at the end of the tokens name no token
      unfold State.finish at hs
      split at hs <;> cases hs <;> cases hw
  · rintro ⟨token, hm, hw⟩
    obtain ⟨before, after, s, error, rfl, hb, hs⟩ := firstMisfit_iff.mp hm
    refine ⟨error, ?_, by rw [isWritable_of_step hs, hw]⟩
    rw [Expr.ofTokens, if_neg (by simp), run_append_of_ok hb, run, hs]
    rfl

/-- Only an integer without a spelling can be too long to write. -/
theorem isWritable_eq_false_iff : token.isWritable = false ↔
    ∃ value : Int, token = .integer value "" ∧ 10 ^ 4300 ≤ value.natAbs := by
  have hlimit (value : Int) : Text.isWritable value = false ↔ 10 ^ 4300 ≤ value.natAbs := by
    rw [Text.isWritable, decide_eq_false_iff_not, Nat.not_lt, Text.digitLimit]
  constructor
  · intro h
    cases token with
    | integer value spelling =>
      rw [Token.isWritable, Bool.or_eq_false_iff, bne_eq_false_iff_eq, hlimit] at h
      exact ⟨value, by rw [h.1], h.2⟩
    | _ => cases h
  · rintro ⟨value, rfl, h⟩
    rw [Token.isWritable, (hlimit value).mpr h]
    rfl

theorem parse_eq_limit_iff : Expr.parse tokens = .error (.limit .tooManyDigits) ↔
    ∃ value : Int, FirstMisfit tokens (.integer value "") ∧ 10 ^ 4300 ≤ value.natAbs := by
  have hmisfit : (∃ token, FirstMisfit tokens token ∧ token.isWritable = false) ↔
      ∃ value : Int, FirstMisfit tokens (.integer value "") ∧ 10 ^ 4300 ≤ value.natAbs := by
    constructor
    · rintro ⟨token, hm, hw⟩
      obtain ⟨value, rfl, hv⟩ := isWritable_eq_false_iff.mp hw
      exact ⟨value, hm, hv⟩
    · rintro ⟨value, hm, hv⟩
      exact ⟨_, hm, isWritable_eq_false_iff.mpr ⟨value, rfl, hv⟩⟩
  rw [← hmisfit, ← exists_not_isWritable_iff, Expr.parse]
  cases Expr.ofTokens tokens with
  | ok e => simp
  | error error => cases hw : error.isWritable <;> simp [ParseError.fault, hw]

theorem parse_eq_ok_iff : Expr.parse tokens = .ok e ↔ Derives .sum tokens e := by
  rw [← ofTokens_eq_ok_iff, Expr.parse]
  cases Expr.ofTokens tokens with
  | ok e => simp
  | error error => simp

/-- What reading a list of tokens can end in. -/
theorem parse_cases (tokens : List Token) : (∃ e, Expr.parse tokens = .ok e) ∨
    (∃ error, Expr.parse tokens = .error (.failure (.parse error))) ∨
    Expr.parse tokens = .error (.limit .tooManyDigits) := by
  rw [Expr.parse]
  cases Expr.ofTokens tokens with
  | ok e => simp
  | error error => cases hw : error.isWritable <;> simp [ParseError.fault, hw]

/-- The outcomes of reading a list of tokens: the tree that the grammar gives, of which there is at
most one; the limit of written numbers, if the first misfit is a number without a spelling that is
too long to write; and a parse error for all other lists of tokens that are no expression. -/
theorem parse_iff_derives (tokens : List Token) :
    (∀ e, Expr.parse tokens = .ok e ↔ Derives .sum tokens e) ∧
    {e | Derives .sum tokens e}.Subsingleton ∧
    (Expr.parse tokens = .error (.limit .tooManyDigits) ↔
      ∃ value : Int, FirstMisfit tokens (.integer value "") ∧ 10 ^ 4300 ≤ value.natAbs) ∧
    ((∃ error, Expr.parse tokens = .error (.failure (.parse error))) ↔
      (¬∃ e, Derives .sum tokens e) ∧
      ¬∃ value : Int, FirstMisfit tokens (.integer value "") ∧ 10 ^ 4300 ≤ value.natAbs) := by
  refine ⟨fun e ↦ parse_eq_ok_iff, ?_, parse_eq_limit_iff, ?_⟩
  · intro e he e' he'
    rw [Set.mem_ofPred_eq, ← parse_eq_ok_iff] at he he'
    rw [he, Except.ok.injEq] at he'
    exact he'
  · simp only [← parse_eq_limit_iff, ← parse_eq_ok_iff]
    constructor
    · rintro ⟨error, h⟩
      simp [h]
    · rintro ⟨hok, hlimit⟩
      rcases parse_cases tokens with h | h | h
      · exact absurd h hok
      · exact h
      · exact absurd h hlimit

/-- A number without a spelling after a complete expression may be too long for the error. -/
theorem parse_unspelled_leftover :
    (¬∃ e, Derives .sum [.integer 1 "1", .integer (10 ^ 4300) ""] e) ∧
      Expr.parse [.integer 1 "1", .integer (10 ^ 4300) ""] = .error (.limit .tooManyDigits) := by
  have hw : Token.isWritable (.integer (10 ^ 4300) "") = false := by
    refine isWritable_eq_false_iff.mpr ⟨10 ^ 4300, rfl, ?_⟩
    rw [Int.natAbs_pow, show Int.natAbs 10 = 10 from rfl]
  -- from here on only its being too long matters, and no step may compute the number
  generalize (10 ^ 4300 : Int) = value at hw
  have ho : Expr.ofTokens [.integer 1 "1", .integer value ""]
      = .error (.leftover (.integer value "") 1) := rfl
  have hp : Expr.parse [.integer 1 "1", .integer value ""] = .error (.limit .tooManyDigits) := by
    simp only [Expr.parse, ho, ParseError.fault, ParseError.isWritable, hw]
    rfl
  refine ⟨?_, hp⟩
  rintro ⟨e, he⟩
  rw [← parse_eq_ok_iff, hp] at he
  cases he

end Parser

end UnitCalc
